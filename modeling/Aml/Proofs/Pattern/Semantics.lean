import Mathlib
import Aml.Proofs.Pattern.Run

/-!
# What patterns mean

`Pattern.Matches` says which characters a pattern can match between the character before them and
the characters after them, with no preference among matches: greediness and the order of
alternatives do not matter. Each form of pattern has an equivalence that says what its matches
are made of.
-/
namespace Aml.Pattern

/-- The characters that a literal stands for. -/
def literalSet (codePoint : Nat) (folded : Bool) : CharSet :=
  if folded then .folded (.single codePoint) else .single codePoint

/-- The matches of a pattern between a character, if there is one before, and the rest. -/
inductive Matches : Pattern → (before : Option Character) → (taken rest : List Character) →
    Prop where
  | empty {before : Option Character} {rest : List Character} : Matches .empty before [] rest
  | literal {codePoint : Nat} {folded : Bool} {before : Option Character} {character : Character}
      {rest : List Character}
      (member : (literalSet codePoint folded).contains character.scalar.toNat) :
      Matches (.literal codePoint folded) before [character] rest
  | oneOf {choices : CharSet} {before : Option Character} {character : Character}
      {rest : List Character} (member : choices.contains character.scalar.toNat) :
      Matches (.oneOf choices) before [character] rest
  | anchor {assertion : Assertion} {before : Option Character} {rest : List Character}
      (holds : assertion.holds before rest.head?) : Matches (.anchor assertion) before [] rest
  | group {body : Pattern} {before : Option Character} {taken rest : List Character}
      (inner : Matches body before taken rest) : Matches (.group body) before taken rest
  | sequence {first second : Pattern} {before : Option Character}
      {left right rest : List Character} (earlier : Matches first before left (right ++ rest))
      (later : Matches second (left.getLast?.or before) right rest) :
      Matches (.sequence first second) before (left ++ right) rest
  | former {first second : Pattern} {before : Option Character} {taken rest : List Character}
      (inner : Matches first before taken rest) :
      Matches (.choice first second) before taken rest
  | latter {first second : Pattern} {before : Option Character} {taken rest : List Character}
      (inner : Matches second before taken rest) :
      Matches (.choice first second) before taken rest
  | done {body : Pattern} {greedy : Bool} {before : Option Character} {rest : List Character} :
      Matches (.star body greedy) before [] rest
  | again {body : Pattern} {greedy : Bool} {before : Option Character}
      {left right rest : List Character} (round : Matches body before left (right ++ rest))
      (later : Matches (.star body greedy) (left.getLast?.or before) right rest) :
      Matches (.star body greedy) before (left ++ right) rest
  | plus {body : Pattern} {greedy : Bool} {before : Option Character}
      {left right rest : List Character} (round : Matches body before left (right ++ rest))
      (later : Matches (.star body greedy) (left.getLast?.or before) right rest) :
      Matches (.plus body greedy) before (left ++ right) rest
  | absent {body : Pattern} {greedy : Bool} {before : Option Character} {rest : List Character} :
      Matches (.optional body greedy) before [] rest
  | present {body : Pattern} {greedy : Bool} {before : Option Character}
      {taken rest : List Character} (inner : Matches body before taken rest) :
      Matches (.optional body greedy) before taken rest
  | counted {body : Pattern} {least rounds : Nat} {most : Option Nat} {greedy : Bool}
      {before : Option Character} {taken rest : List Character} (enough : least ≤ rounds)
      (within : ∀ limit ∈ most, rounds ≤ limit)
      (inner : Matches (ofSequence (List.replicate rounds body)) before taken rest) :
      Matches (.counted body least most greedy) before taken rest

namespace Matches

variable {first second body : Pattern} {greedy : Bool} {before : Option Character}
  {taken rest : List Character} {choices : CharSet}

/-- A literal matches one character. -/
theorem literal_iff {codePoint : Nat} {folded : Bool} :
    Matches (.literal codePoint folded) before taken rest ↔
      ∃ character : Character, taken = [character] ∧
        (literalSet codePoint folded).contains character.scalar.toNat := by
  constructor
  · rintro ⟨⟩
    exact ⟨_, rfl, ‹_›⟩
  · rintro ⟨character, rfl, member⟩
    exact .literal member

/-- A set matches one character. -/
theorem oneOf_iff :
    Matches (.oneOf choices) before taken rest ↔
      ∃ character : Character, taken = [character] ∧ choices.contains character.scalar.toNat := by
  constructor
  · rintro ⟨⟩
    exact ⟨_, rfl, ‹_›⟩
  · rintro ⟨character, rfl, member⟩
    exact .oneOf member

/-- Parentheses do not change what a pattern matches. -/
theorem group_iff : Matches (.group body) before taken rest ↔ Matches body before taken rest := by
  constructor
  · rintro ⟨⟩
    assumption
  · exact .group

/-- Two patterns in a row match two texts in a row. -/
theorem sequence_iff :
    Matches (.sequence first second) before taken rest ↔
      ∃ left right, taken = left ++ right ∧ Matches first before left (right ++ rest) ∧
        Matches second (left.getLast?.or before) right rest := by
  constructor
  · rintro ⟨⟩
    exact ⟨_, _, rfl, ‹_›, ‹_›⟩
  · rintro ⟨left, right, rfl, earlier, later⟩
    exact .sequence earlier later

/-- A choice matches what either pattern does. -/
theorem choice_iff :
    Matches (.choice first second) before taken rest ↔
      Matches first before taken rest ∨ Matches second before taken rest := by
  constructor
  · intro matched
    cases matched with
    | former inner => exact .inl inner
    | latter inner => exact .inr inner
  · rintro (inner | inner)
    · exact .former inner
    · exact .latter inner

/-- An optional pattern matches what it does or nothing. -/
theorem optional_iff :
    Matches (.optional body greedy) before taken rest ↔
      taken = [] ∨ Matches body before taken rest := by
  constructor
  · intro matched
    cases matched with
    | absent => exact .inl rfl
    | present inner => exact .inr inner
  · rintro (rfl | inner)
    · exact .absent
    · exact .present inner

/-- At least one round is one round and then any number of them. -/
theorem plus_iff :
    Matches (.plus body greedy) before taken rest ↔
      Matches (.sequence body (.star body greedy)) before taken rest := by
  rw [sequence_iff]
  constructor
  · rintro ⟨⟩
    exact ⟨_, _, rfl, ‹_›, ‹_›⟩
  · rintro ⟨left, right, rfl, round, later⟩
    exact .plus round later

/-- Any number of rounds, where each round takes one character with a property. -/
theorem star_iff {holds : Character → Bool}
    (rounds : ∀ {before taken rest}, Matches body before taken rest ↔
      ∃ character, taken = [character] ∧ holds character) :
    Matches (.star body greedy) before taken rest ↔ ∀ character ∈ taken, holds character := by
  constructor
  · intro matched
    generalize looped : Pattern.star body greedy = pattern at matched
    induction matched with
    | done => simp
    | again round later _ ih =>
      cases looped
      obtain ⟨character, rfl, member⟩ := rounds.mp round
      exact List.forall_mem_cons.mpr ⟨member, ih rfl⟩
    | _ => contradiction
  · intro all
    induction taken generalizing before with
    | nil => exact .done
    | cons character others ih =>
      obtain ⟨first, later⟩ := List.forall_mem_cons.mp all
      exact .again (rounds.mpr ⟨character, rfl, first⟩) (ih later)

/-- At least one round, where each round takes one character with a property. -/
theorem plus_run_iff {holds : Character → Bool}
    (rounds : ∀ {before taken rest}, Matches body before taken rest ↔
      ∃ character, taken = [character] ∧ holds character) :
    Matches (.plus body greedy) before taken rest ↔
      taken ≠ [] ∧ ∀ character ∈ taken, holds character := by
  rw [plus_iff, sequence_iff]
  constructor
  · rintro ⟨_, right, rfl, round, later⟩
    obtain ⟨character, rfl, member⟩ := rounds.mp round
    exact ⟨by simp, List.forall_mem_cons.mpr ⟨member, (star_iff rounds).mp later⟩⟩
  · rintro ⟨present, all⟩
    obtain ⟨character, others, rfl⟩ := List.exists_cons_of_ne_nil present
    obtain ⟨first, later⟩ := List.forall_mem_cons.mp all
    exact ⟨[character], others, rfl, rounds.mpr ⟨character, rfl, first⟩,
      (star_iff rounds).mpr later⟩

end Matches

end Aml.Pattern
