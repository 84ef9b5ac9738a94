import Mathlib
import Aml.Proofs.Pattern.Run
import Aml.Proofs.Text.Place
import Aml.Scan.Stream

/-!
# The matches of the engine

At each cursor the engine lets the first matching rule take its characters (`Registry.split?`), and
so it cuts a source into pieces, with fuel and an accumulator. `Registry.Cuts` says the same step by
step, and every cut has such a derivation (`Registry.cuts`).

Two checks on what the engine gives always pass. A piece is a match of a rule of the registry, and
its symbol leads back to this rule, since no other rule has its name (`Scanner.read_eq`). A fault
tells a place of the source, before a character that no rule takes (`EngineFault.error_eq`).
-/
namespace Aml

/-! ## What a rule takes at a cursor -/

/-- A fixed text that starts a source is no longer than it. -/
theorem startsWith_le {scalars : List Char} {characters : List Character}
    (starts : startsWith scalars characters) : scalars.length ≤ characters.length := by
  induction scalars generalizing characters with
  | nil => exact Nat.zero_le _
  | cons scalar scalars ih =>
    cases characters with
    | nil => contradiction
    | cons character rest =>
      rw [startsWith, Bool.and_eq_true] at starts
      exact Nat.succ_le_succ (ih starts.2)

/-- A match is no longer than the source. -/
theorem Matcher.attempt_le {matcher : Matcher} {characters : List Character} {length : Nat}
    (matched : matcher.attempt characters = .matched length) : length ≤ characters.length := by
  unfold attempt at matched
  split at matched
  · split at matched
    · obtain rfl := Trial.matched.inj matched
      exact startsWith_le ‹_›
    · contradiction
  · split at matched
    · obtain rfl := Trial.matched.inj matched
      exact Program.match?_le ‹_›
    · contradiction
  · contradiction

namespace Registry

/-- The chosen match is no longer than the source. -/
theorem choose_le {rules : List CheckedRule} {characters : List Character} {rule : Rule}
    {length : Nat} (chosen : choose rules characters = some (rule, length)) :
    length ≤ characters.length := by
  induction rules with
  | nil => contradiction
  | cons checked rest ih =>
    rw [choose] at chosen
    split at chosen
    · simp only [Option.some.injEq, Prod.mk.injEq] at chosen
      exact chosen.2 ▸ Matcher.attempt_le ‹_›
    · exact ih chosen
    · contradiction

/-- The chosen rule is one of those tried. -/
theorem mem_of_choose {rules : List CheckedRule} {characters : List Character} {rule : Rule}
    {length : Nat} (chosen : choose rules characters = some (rule, length)) :
    ∃ checked ∈ rules, checked.rule = rule := by
  induction rules with
  | nil => contradiction
  | cons checked rest ih =>
    rw [choose] at chosen
    split at chosen
    · simp only [Option.some.injEq, Prod.mk.injEq] at chosen
      exact ⟨checked, List.mem_cons_self, chosen.1⟩
    · obtain ⟨other, member, same⟩ := ih chosen
      exact ⟨other, List.mem_cons_of_mem _ member, same⟩
    · contradiction

/-- The rule that takes characters at the front, with what it takes and what it leaves. -/
def split? (registry : Registry) (characters : List Character) :
    Option (Rule × List Character × List Character) :=
  match choose registry.rules characters with
  | some (rule, length + 1) =>
    some (rule, characters.take (length + 1), characters.drop (length + 1))
  | _ => none

/-- A rule takes some characters, and they are the ones it matches. -/
theorem split?_eq_some_iff {registry : Registry} {characters taken rest : List Character}
    {rule : Rule} :
    registry.split? characters = some (rule, taken, rest) ↔
      characters = taken ++ rest ∧ taken ≠ [] ∧
        choose registry.rules characters = some (rule, taken.length) := by
  constructor
  · intro split
    unfold split? at split
    split at split
    · rename_i found length chosen
      simp only [Option.some.injEq, Prod.mk.injEq] at split
      obtain ⟨rfl, rfl, rfl⟩ := split
      have within := choose_le chosen
      have sized : (characters.take (length + 1)).length = length + 1 :=
        List.length_take_of_le within
      refine ⟨(List.take_append_drop _ _).symm, ?_, by rw [chosen, sized]⟩
      intro empty
      rw [empty] at sized
      contradiction
    · contradiction
  · rintro ⟨rfl, present, chosen⟩
    obtain ⟨length, sized⟩ := Nat.exists_eq_succ_of_ne_zero
      (mt List.length_eq_zero_iff.mp present)
    rw [split?, chosen, sized]
    simp only [← Nat.succ_eq_add_one, ← sized, List.take_left, List.drop_left]

/-- The rule that takes characters is one of the registry. -/
theorem mem_of_split? {registry : Registry} {characters taken rest : List Character} {rule : Rule}
    (split : registry.split? characters = some (rule, taken, rest)) :
    ∃ checked ∈ registry.rules, checked.rule = rule := by
  obtain ⟨_, _, chosen⟩ := split?_eq_some_iff.mp split
  exact mem_of_choose chosen

/-- Nothing is taken at the end. -/
@[simp]
theorem split?_nil (registry : Registry) : registry.split? [] = none := by
  refine Option.eq_none_iff_forall_ne_some.mpr fun ⟨rule, taken, rest⟩ split => ?_
  obtain ⟨empty, present, _⟩ := split?_eq_some_iff.mp split
  exact present (List.append_eq_nil_iff.mp empty.symm).1

/-- The pieces of characters from a position on, and how the cut ends. -/
inductive Cuts (registry : Registry) :
    List Character → Position → List Piece → Ending → Prop where
  | finished (position : Position) : Cuts registry [] position [] .finished
  | illegal {character : Character} {rest : List Character} (position : Position)
      (stuck : registry.split? (character :: rest) = none) :
      Cuts registry (character :: rest) position [] (.stoppedAt position)
  | piece {characters taken rest : List Character} {rule : Rule} {position : Position}
      {pieces : List Piece} {ending : Ending}
      (split : registry.split? characters = some (rule, taken, rest))
      (later : Cuts registry rest (position.advance (Text.ofCharacters taken)) pieces ending) :
      Cuts registry characters position (⟨rule, Text.ofCharacters taken, position⟩ :: pieces)
        ending

/-- One step of a cut. -/
theorem cutFrom_succ (registry : Registry) (fuel : Nat) (character : Character)
    (rest : List Character) (position : Position) (before : List Piece) :
    registry.cutFrom (fuel + 1) (character :: rest) position before =
      match registry.split? (character :: rest) with
      | none => ⟨before.reverse, .stoppedAt position⟩
      | some (rule, taken, left) =>
        registry.cutFrom fuel left (position.advance (Text.ofCharacters taken))
          (⟨rule, Text.ofCharacters taken, position⟩ :: before) := by
  rw [cutFrom, split?]
  cases choose registry.rules (character :: rest) with
  | none => rfl
  | some found =>
    obtain ⟨rule, length⟩ := found
    cases length <;> rfl

/-- With enough fuel, cutting adds the pieces of the characters to those before them. -/
theorem cutFrom_cuts (registry : Registry) (fuel : Nat) (characters : List Character)
    (position : Position) (before : List Piece) (enough : characters.length ≤ fuel) :
    ∃ pieces ending, registry.Cuts characters position pieces ending ∧
      registry.cutFrom fuel characters position before = ⟨before.reverse ++ pieces, ending⟩ := by
  induction fuel generalizing characters position before with
  | zero =>
    obtain rfl := List.length_eq_zero_iff.mp (Nat.le_zero.mp enough)
    exact ⟨[], .finished, .finished position, by simp [cutFrom]⟩
  | succ fuel ih =>
    cases characters with
    | nil => exact ⟨[], .finished, .finished position, by simp [cutFrom]⟩
    | cons character rest =>
      rw [cutFrom_succ]
      cases split : registry.split? (character :: rest) with
      | none =>
        exact ⟨[], .stoppedAt position, .illegal position split, by simp⟩
      | some found =>
        obtain ⟨rule, taken, left⟩ := found
        obtain ⟨equal, present, _⟩ := split?_eq_some_iff.mp split
        have shorter : left.length ≤ fuel := by
          have positive := List.length_pos_of_ne_nil present
          rw [equal, List.length_append] at enough
          omega
        obtain ⟨pieces, ending, cuts, same⟩ :=
          ih left (position.advance (Text.ofCharacters taken))
            (⟨rule, Text.ofCharacters taken, position⟩ :: before) shorter
        refine ⟨_, ending, .piece split cuts, same.trans ?_⟩
        rw [List.reverse_cons, List.append_assoc, List.singleton_append]

/-- The cut of a source has a derivation. -/
theorem cuts (registry : Registry) (source : Text) :
    registry.Cuts source.characters .start (registry.cut source).pieces
      (registry.cut source).ending := by
  obtain ⟨pieces, ending, cuts, same⟩ :=
    registry.cutFrom_cuts source.characters.length source.characters .start [] (Nat.le_refl _)
  rw [cut, same]
  exact cuts

/-- Every piece of a cut is a match of a rule of the registry. -/
theorem Cuts.known {registry : Registry} {characters : List Character} {position : Position}
    {pieces : List Piece} {ending : Ending}
    (cuts : registry.Cuts characters position pieces ending) :
    ∀ piece ∈ pieces, ∃ checked ∈ registry.rules, checked.rule = piece.rule := by
  induction cuts with
  | finished | illegal => simp
  | piece split later ih => exact List.forall_mem_cons.mpr ⟨mem_of_split? split, ih⟩

/-- The pieces of a cut that is finished make up the characters. -/
theorem Cuts.flatten {registry : Registry} {characters : List Character} {position : Position}
    {pieces : List Piece} {ending : Ending}
    (cuts : registry.Cuts characters position pieces ending) (finished : ending = .finished) :
    (pieces.map Piece.lexeme).flatten = Text.ofCharacters characters := by
  induction cuts with
  | finished => rfl
  | illegal => contradiction
  | piece split later ih =>
    obtain ⟨rfl, _, _⟩ := split?_eq_some_iff.mp split
    rw [List.map_cons, List.flatten_cons, ih finished, Text.ofCharacters_append]

end Registry

/-! ## Symbols and places -/

/-- The symbol of a rule leads back to the rule: no rule before it has its name. -/
theorem Registry.rule?_symbol {registry : Registry} {checked : CheckedRule}
    (member : checked ∈ registry.rules) :
    registry.rule? (registry.symbol checked.rule.name) = some checked.rule := by
  have found : registry.symbol checked.rule.name < registry.rules.length :=
    List.findIdx_lt_length_of_exists ⟨checked, member, decide_eq_true rfl⟩
  have named : registry.rules[registry.symbol checked.rule.name].rule.name = checked.rule.name :=
    of_decide_eq_true (List.findIdx_getElem (w := found))
  have same : registry.rules[registry.symbol checked.rule.name] = checked :=
    List.inj_on_of_nodup_map registry.distinct (List.getElem_mem found) member named
  rw [rule?, List.getElem?_eq_getElem found, same, Option.map_some]

/-- A match of a rule of the registry is read by this rule. -/
theorem Scanner.read_eq {scanner : Scanner} {piece : Piece}
    (member : ∃ checked ∈ scanner.registry.rules, checked.rule = piece.rule) (line : Int) :
    scanner.read piece line = piece.read scanner.table line := by
  obtain ⟨checked, listed, same⟩ := member
  rw [read, ← same, Registry.rule?_symbol listed]
  exact congrArg (fun rule => Piece.read { piece with rule } scanner.table line) same

/-- What the engine says of a fault stands for no end of the input. -/
theorem EngineFault.error_endsInput (fault : EngineFault) (source : Text) (line : Int) :
    (fault.error source line).endsInput = false := by
  unfold error
  split
  · rfl
  · split
    · rfl
    · split <;> rfl

/-- A fault at the place before a character is the error that names this character. -/
theorem EngineFault.error_eq {source : Text} {front rest : List Character} {character : Character}
    {position : Position} (whole : source.characters = front ++ character :: rest)
    (reached : position.offset = (Text.ofCharacters front).length) (line : Int) :
    EngineFault.error { position? := some position } source line =
      .illegalCharacter character.scalar line position := by
  have remaining : source.drop position.offset.toNat = Text.ofCharacters (character :: rest) := by
    rw [reached, Int.toNat_natCast, Text.drop_of_characters whole]
  have decoded := Text.characters_ofCharacters_right whole
  have placed : ¬position.offset < 0 := by omega
  rw [error]
  simp only [placed, if_false, remaining]
  cases left : Text.ofCharacters (character :: rest) with
  | nil =>
    rw [left] at decoded
    contradiction
  | cons byte bytes =>
    obtain ⟨behind, split, leads⟩ := Text.leads_firstCharacter byte bytes
    rw [left, split, leads.characters] at decoded
    exact congrArg (fun first : Character => ScanError.illegalCharacter first.scalar line position)
      (List.cons.inj decoded).1

end Aml
