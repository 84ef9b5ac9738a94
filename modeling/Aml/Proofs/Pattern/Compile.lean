import Mathlib
import Aml.Proofs.Pattern.Machine
import Aml.Proofs.Pattern.Semantics

/-!
# Compiled patterns

The code of a pattern is a fragment that goes on at a place given to it. `Pattern.Implements` says
what such a fragment means: from its entry a program can match exactly what the pattern allows and
then what it can match from the place after it, for whatever code surrounds the fragment. Each way
to build a fragment has one lemma, and a loop is settled by induction on the number of steps, since
a round may take nothing. The compiled pattern therefore finds a match exactly where the pattern has
one (`Pattern.match?_compile_eq_none_iff`), and the match it gives is one of the pattern
(`Pattern.matches_of_match?_compile`).
-/
namespace Aml

/-! ## Meanings -/

/-- What may be taken between a character, if there is one before, and the rest. -/
abbrev Meaning :=
  (before : Option Character) → (taken rest : List Character) → Prop

namespace Meaning

variable {before : Option Character} {taken rest : List Character}

/-- Nothing is taken. -/
def nothing : Meaning :=
  fun _ taken _ => taken = []

/-- One thing is taken and then another. -/
def andThen (first second : Meaning) : Meaning :=
  fun before taken rest => ∃ left right, taken = left ++ right ∧ first before left (right ++ rest) ∧
    second (left.getLast?.or before) right rest

/-- A thing is taken a number of times. -/
def times (body : Meaning) : Nat → Meaning
  | 0 => nothing
  | count + 1 => body.andThen (body.times count)

/-- A thing is taken as often as is allowed. -/
def often (body : Meaning) (allowed : Nat → Prop) : Meaning :=
  fun before taken rest => ∃ count, allowed count ∧ body.times count before taken rest

/-- Three things in a row can be grouped either way. -/
theorem andThen_assoc (first second third : Meaning) :
    (first.andThen second).andThen third = first.andThen (second.andThen third) := by
  have last (left right : List Character) (before : Option Character) :
      (left ++ right).getLast?.or before = right.getLast?.or (left.getLast?.or before) := by
    rw [List.getLast?_append, Option.or_assoc]
  funext before taken rest
  refine propext ⟨?_, ?_⟩
  · rintro ⟨_, right, rfl, ⟨left, middle, rfl, one, two⟩, three⟩
    rw [last] at three
    rw [← List.append_assoc] at one
    exact ⟨left, middle ++ right, List.append_assoc _ _ _, one, middle, right, rfl, two, three⟩
  · rintro ⟨left, _, rfl, one, middle, right, rfl, two, three⟩
    rw [List.append_assoc] at one
    refine ⟨left ++ middle, right, (List.append_assoc _ _ _).symm,
      ⟨left, middle, rfl, one, two⟩, ?_⟩
    rwa [last]

/-- Nothing and then a thing is the thing. -/
theorem nothing_andThen (meaning : Meaning) : nothing.andThen meaning = meaning := by
  funext before taken rest
  refine propext ⟨?_, fun whole => ⟨[], taken, rfl, rfl, whole⟩⟩
  rintro ⟨_, right, rfl, rfl, whole⟩
  exact whole

/-- A thing and then nothing is the thing. -/
theorem andThen_nothing (meaning : Meaning) : meaning.andThen nothing = meaning := by
  funext before taken rest
  refine propext ⟨?_, fun whole => ⟨taken, [], by simp, whole, rfl⟩⟩
  rintro ⟨left, _, rfl, whole, rfl⟩
  rwa [List.append_nil]

/-- Either of two things in a row may be weakened. -/
theorem andThen_mono {first second third fourth : Meaning}
    (earlier : ∀ {before taken rest}, first before taken rest → third before taken rest)
    (later : ∀ {before taken rest}, second before taken rest → fourth before taken rest)
    (both : first.andThen second before taken rest) :
    third.andThen fourth before taken rest := by
  obtain ⟨left, right, whole, one, two⟩ := both
  exact ⟨left, right, whole, earlier one, later two⟩

/-- The last round may be split off instead of the first. -/
theorem times_succ (body : Meaning) (count : Nat) :
    body.times (count + 1) = (body.times count).andThen body := by
  induction count with
  | zero => exact (andThen_nothing body).trans (nothing_andThen body).symm
  | succ count ih =>
    calc
      body.times (count + 2) = body.andThen (body.times (count + 1)) := rfl
      _ = body.andThen ((body.times count).andThen body) := by rw [ih]
      _ = (body.times (count + 1)).andThen body := (andThen_assoc _ _ _).symm

/-- Rounds in a row add up. -/
theorem times_add (body : Meaning) (more count : Nat) :
    body.times (more + count) = (body.times more).andThen (body.times count) := by
  induction more with
  | zero => rw [Nat.zero_add, times, nothing_andThen]
  | succ more ih =>
    calc
      body.times (more + 1 + count) = body.times (more + count + 1) := by
        rw [Nat.add_right_comm]
      _ = body.andThen ((body.times more).andThen (body.times count)) := by rw [times, ih]
      _ = (body.times (more + 1)).andThen (body.times count) := (andThen_assoc _ _ _).symm

/-- Some rounds and then as many as are allowed. -/
theorem times_andThen_often (body : Meaning) (least : Nat) (allowed : Nat → Prop) :
    (body.times least).andThen (body.often allowed) =
      body.often fun count => least ≤ count ∧ allowed (count - least) := by
  funext before taken rest
  refine propext ⟨?_, ?_⟩
  · rintro ⟨left, right, whole, earlier, count, few, later⟩
    refine ⟨least + count, ⟨Nat.le_add_right _ _, by rwa [Nat.add_sub_cancel_left]⟩, ?_⟩
    rw [times_add]
    exact ⟨left, right, whole, earlier, later⟩
  · rintro ⟨count, ⟨enough, few⟩, rounds⟩
    rw [← Nat.add_sub_of_le enough, times_add] at rounds
    obtain ⟨left, right, whole, earlier, later⟩ := rounds
    exact ⟨left, right, whole, earlier, count - least, few, later⟩

/-- One round and then any number of them. -/
theorem andThen_often (body : Meaning) :
    body.andThen (body.often fun _ => True) = body.often fun count => 1 ≤ count := by
  have rounds := times_andThen_often body 1 fun _ => True
  rw [times, times, andThen_nothing] at rounds
  simpa only [and_true] using rounds

/-- Allowing more numbers of rounds allows more. -/
theorem often_mono {body : Meaning} {few many : Nat → Prop} (more : ∀ count, few count → many count)
    (rounds : body.often few before taken rest) : body.often many before taken rest := by
  obtain ⟨count, allowed, rounds⟩ := rounds
  exact ⟨count, more count allowed, rounds⟩

/-- The same numbers of rounds allow the same. -/
theorem often_congr {body : Meaning} {few many : Nat → Prop}
    (same : ∀ count, few count ↔ many count) : body.often few = body.often many :=
  congrArg body.often (funext fun count => propext (same count))

end Meaning

namespace Pattern

/-! ## The meaning of a pattern -/

/-- Two patterns in a row. -/
theorem matches_sequence (first second : Pattern) :
    Matches (.sequence first second) = Meaning.andThen (Matches first) (Matches second) := by
  funext before taken rest
  exact propext Matches.sequence_iff

/-- The empty pattern. -/
theorem matches_empty : Matches .empty = Meaning.nothing := by
  funext before taken rest
  refine propext ⟨?_, ?_⟩
  · rintro ⟨⟩
    rfl
  · rintro rfl
    exact .empty

/-- A pattern a number of times in a row. -/
theorem matches_replicate (body : Pattern) (count : Nat) :
    Matches (ofSequence (List.replicate count body)) = Meaning.times (Matches body) count := by
  induction count with
  | zero => exact matches_empty
  | succ count ih =>
    rw [List.replicate_succ, Meaning.times, ← ih]
    cases count with
    | zero => exact (matches_empty ▸ Meaning.andThen_nothing _).symm
    | succ count => exact matches_sequence body _

/-- A counted repetition. -/
theorem matches_counted (body : Pattern) (least : Nat) (most : Option Nat) (greedy : Bool) :
    Matches (.counted body least most greedy) =
      Meaning.often (Matches body) fun count =>
        least ≤ count ∧ ∀ limit ∈ most, count ≤ limit := by
  funext before taken rest
  refine propext ⟨?_, ?_⟩
  · intro matched
    cases matched with
    | @counted _ _ rounds _ _ _ _ _ enough within inner =>
      rw [matches_replicate] at inner
      exact ⟨rounds, ⟨enough, within⟩, inner⟩
  · rintro ⟨rounds, ⟨enough, within⟩, inner⟩
    rw [← matches_replicate] at inner
    exact .counted enough within inner

/-- Any number of rounds. -/
theorem matches_star (body : Pattern) (greedy : Bool) :
    Matches (.star body greedy) = Meaning.often (Matches body) fun _ => True := by
  funext before taken rest
  refine propext ⟨?_, ?_⟩
  · intro matched
    generalize looped : Pattern.star body greedy = pattern at matched
    induction matched with
    | done => exact ⟨0, trivial, rfl⟩
    | again round later _ ih =>
      cases looped
      obtain ⟨count, _, others⟩ := ih rfl
      exact ⟨count + 1, trivial, _, _, rfl, round, others⟩
    | _ => contradiction
  · rintro ⟨count, _, rounds⟩
    induction count generalizing before taken with
    | zero =>
      obtain rfl := rounds
      exact .done
    | succ count ih =>
      obtain ⟨left, right, rfl, round, others⟩ := rounds
      exact .again round (ih _ _ others)

/-- At least one round. -/
theorem matches_plus (body : Pattern) (greedy : Bool) :
    Matches (.plus body greedy) = Meaning.often (Matches body) fun count => 1 ≤ count := by
  rw [← Meaning.andThen_often, ← matches_star body greedy, ← matches_sequence]
  funext before taken rest
  exact propext Matches.plus_iff

end Pattern

/-! ## Single instructions -/

namespace Program

variable {program : Program} {place next : Nat} {before : Option Character}
  {taken rest : List Character} {steps : Nat}

/-- A match at a place that takes a character takes one of its set. -/
theorem accepts_consume {set : CharSet} (here : program.code[place]? = some (.consume set next))
    (accepts : program.Accepts steps place before taken rest) :
    ∃ fewer character others, fewer < steps ∧ taken = character :: others ∧
      set.contains character.scalar.toNat ∧
      program.Accepts fewer next (some character) others rest := by
  cases accepts with
  | accept ends => simp [isAccepting, here] at ends
  | silent follows _ => simp [silent, here] at follows
  | @take fewer _ _ _ character others _ takes later =>
    simp only [take?, here, Option.ite_none_right_eq_some, Option.some.injEq] at takes
    obtain ⟨member, rfl⟩ := takes
    exact ⟨fewer, character, others, Nat.lt_succ_self _, rfl, member, later⟩

/-- A place that takes a character finds what goes on after one of its set. -/
theorem finds_consume {set : CharSet} (here : program.code[place]? = some (.consume set next))
    {character : Character} (member : set.contains character.scalar.toNat)
    (finds : program.Finds next (some character) taken rest) :
    program.Finds place before (character :: taken) rest := by
  obtain ⟨steps, accepts⟩ := finds
  have takes : program.take? character place = some next := by
    simp only [take?, here, member, if_true]
  exact ⟨steps + 1, .take takes accepts⟩

/-- A match at a place with an assertion goes on where the assertion holds. -/
theorem accepts_check {assertion : Assertion}
    (here : program.code[place]? = some (.check assertion next))
    (accepts : program.Accepts steps place before taken rest) :
    ∃ fewer < steps, assertion.holds before (taken ++ rest).head? = true ∧
      program.Accepts fewer next before taken rest := by
  cases accepts with
  | accept ends => simp [isAccepting, here] at ends
  | @silent fewer _ _ _ _ _ follows later =>
    simp only [silent, here, List.mem_ite_nil_right, List.mem_singleton] at follows
    obtain ⟨holds, rfl⟩ := follows
    exact ⟨fewer, Nat.lt_succ_self _, holds, later⟩
  | take takes _ => simp [take?, here] at takes

/-- A place with an assertion finds what goes on where the assertion holds. -/
theorem finds_check {assertion : Assertion}
    (here : program.code[place]? = some (.check assertion next))
    (holds : assertion.holds before (taken ++ rest).head? = true)
    (finds : program.Finds next before taken rest) : program.Finds place before taken rest := by
  obtain ⟨steps, accepts⟩ := finds
  have follows : next ∈ program.silent before (taken ++ rest).head? place := by
    simp only [silent, here, holds, if_true, List.mem_singleton]
  exact ⟨steps + 1, .silent follows accepts⟩

/-- A match at a place that splits goes on at either place. -/
theorem accepts_split {preferred other : Nat}
    (here : program.code[place]? = some (.split preferred other))
    (accepts : program.Accepts steps place before taken rest) :
    ∃ fewer < steps, program.Accepts fewer preferred before taken rest ∨
      program.Accepts fewer other before taken rest := by
  cases accepts with
  | accept ends => simp [isAccepting, here] at ends
  | @silent fewer _ target _ _ _ follows later =>
    have either : target = preferred ∨ target = other := by simpa [silent, here] using follows
    obtain rfl | rfl := either
    · exact ⟨fewer, Nat.lt_succ_self _, .inl later⟩
    · exact ⟨fewer, Nat.lt_succ_self _, .inr later⟩
  | take takes _ => simp [take?, here] at takes

/-- A place that splits finds what either place does. -/
theorem finds_split {preferred other : Nat}
    (here : program.code[place]? = some (.split preferred other))
    (finds : program.Finds preferred before taken rest ∨ program.Finds other before taken rest) :
    program.Finds place before taken rest := by
  have follows {target : Nat} (either : target = preferred ∨ target = other) :
      target ∈ program.silent before (taken ++ rest).head? place := by
    simpa [silent, here] using either
  obtain ⟨steps, accepts⟩ | ⟨steps, accepts⟩ := finds
  · exact ⟨steps + 1, .silent (follows (.inl rfl)) accepts⟩
  · exact ⟨steps + 1, .silent (follows (.inr rfl)) accepts⟩

/-- A match at a branch enters the body or goes on after it, whichever is preferred. -/
theorem accepts_branch {greedy : Bool} {body : Nat}
    (here : program.code[place]? = some (Pattern.branch greedy body next))
    (accepts : program.Accepts steps place before taken rest) :
    ∃ fewer < steps, program.Accepts fewer body before taken rest ∨
      program.Accepts fewer next before taken rest := by
  cases greedy with
  | true => exact accepts_split here accepts
  | false =>
    obtain ⟨fewer, less, either⟩ := accepts_split here accepts
    exact ⟨fewer, less, either.symm⟩

/-- A branch finds what its body or the place after it does. -/
theorem finds_branch {greedy : Bool} {body : Nat}
    (here : program.code[place]? = some (Pattern.branch greedy body next))
    (finds : program.Finds body before taken rest ∨ program.Finds next before taken rest) :
    program.Finds place before taken rest := by
  cases greedy with
  | true => exact finds_split here finds
  | false => exact finds_split here finds.symm

/-- A program holds code from a place on. -/
def Holds (program : Program) (code : Array Instruction) (start : Nat) : Prop :=
  ∀ place, start ≤ place → place < code.size → program.code[place]? = code[place]?

/-- A program that holds code holds the part of it that was there before more was added. -/
theorem Holds.earlier {code more : Array Instruction} {start : Nat}
    (holds : program.Holds more start) (grows : code.size ≤ more.size)
    (keeps : ∀ place < code.size, more[place]? = code[place]?) : program.Holds code start :=
  fun place after within =>
    (holds place after (Nat.lt_of_lt_of_le within grows)).trans (keeps place within)

/-- A program that holds code from a place on holds it from any later place on. -/
theorem Holds.later {code : Array Instruction} {start later : Nat}
    (holds : program.Holds code start) (after : start ≤ later) : program.Holds code later :=
  fun place beyond within => holds place (Nat.le_trans after beyond) within

end Program

/-! ## Fragments -/

namespace Pattern

/-- A way to add code that means something: from its entry a program that holds the code can match
exactly what it means and then what it can match from the place given as next. -/
structure Implements (add : (next : Nat) → Array Instruction → Fragment) (meaning : Meaning) :
    Prop where
  /-- Code is added and none taken away. -/
  grows : ∀ next code, code.size ≤ (add next code).code.size
  /-- The code before is left as it is. -/
  keeps : ∀ next code, ∀ place < code.size, (add next code).code[place]? = code[place]?
  /-- Nothing else can be matched from the entry. -/
  sound : ∀ next code (program : Program), program.Holds (add next code).code code.size →
    ∀ steps before taken rest, program.Accepts steps (add next code).entry before taken rest →
      ∃ fewer ≤ steps, meaning.andThen (program.Accepts fewer next) before taken rest
  /-- All of it can be matched from the entry. -/
  complete : ∀ next code (program : Program), program.Holds (add next code).code code.size →
    ∀ before taken rest, meaning.andThen (program.Finds next) before taken rest →
      program.Finds (add next code).entry before taken rest

/-- One more instruction leaves the code before it as it is. -/
theorem getElem?_push_of_lt {code : Array Instruction} {place : Nat} (instruction : Instruction)
    (within : place < code.size) : (code.push instruction)[place]? = code[place]? := by
  rw [Array.getElem?_push, if_neg (Nat.ne_of_lt within)]

/-- Code with one more instruction. -/
theorem holds_push {program : Program} {code : Array Instruction} {start : Nat}
    {instruction : Instruction} (after : start ≤ code.size)
    (holds : program.Holds (code.push instruction) start) :
    program.code[code.size]? = some instruction ∧ program.Holds code start := by
  refine ⟨?_, holds.earlier (by simp) fun place within => getElem?_push_of_lt _ within⟩
  rw [holds code.size after (by simp), Array.getElem?_push_size]

namespace Implements

variable {first second body : Nat → Array Instruction → Fragment} {one other meaning : Meaning}

/-- No code means nothing. -/
theorem skip : Implements (fun next code => ⟨code, next⟩) .nothing where
  grows _ _ := Nat.le_refl _
  keeps _ _ _ _ := rfl
  sound next code program holds steps before taken rest accepts := by
    refine ⟨steps, Nat.le_refl _, ?_⟩
    rwa [Meaning.nothing_andThen]
  complete next code program holds before taken rest finds := by
    rwa [Meaning.nothing_andThen] at finds

/-- One instruction that takes a character of a set. -/
theorem consume (set : CharSet) :
    Implements (fun next code => emit code (.consume set next)) (Matches (.oneOf set)) where
  grows next code := by simp [emit]
  keeps next code place within := getElem?_push_of_lt _ within
  sound next code program holds steps before taken rest accepts := by
    obtain ⟨here, _⟩ := holds_push (Nat.le_refl _) holds
    obtain ⟨fewer, character, others, less, rfl, member, later⟩ :=
      Program.accepts_consume here accepts
    exact ⟨fewer, Nat.le_of_lt less, [character], others, rfl, .oneOf member, later⟩
  complete next code program holds before taken rest finds := by
    obtain ⟨here, _⟩ := holds_push (Nat.le_refl _) holds
    obtain ⟨_, right, rfl, matched, later⟩ := finds
    obtain ⟨character, rfl, member⟩ := Matches.oneOf_iff.mp matched
    exact Program.finds_consume here member later

/-- One instruction that checks an assertion. -/
theorem check (assertion : Assertion) :
    Implements (fun next code => emit code (.check assertion next))
      (Matches (.anchor assertion)) where
  grows next code := by simp [emit]
  keeps next code place within := getElem?_push_of_lt _ within
  sound next code program holds steps before taken rest accepts := by
    obtain ⟨here, _⟩ := holds_push (Nat.le_refl _) holds
    obtain ⟨fewer, less, met, later⟩ := Program.accepts_check here accepts
    exact ⟨fewer, Nat.le_of_lt less, [], taken, rfl, .anchor met, later⟩
  complete next code program holds before taken rest finds := by
    obtain ⟨here, _⟩ := holds_push (Nat.le_refl _) holds
    obtain ⟨_, right, rfl, matched, later⟩ := finds
    cases matched with
    | anchor met => exact Program.finds_check here met later

/-- One fragment that goes on at another. -/
theorem sequence (earlier : Implements first one) (later : Implements second other) :
    Implements (fun next code => first (second next code).entry (second next code).code)
      (one.andThen other) where
  grows next code := Nat.le_trans (later.grows next code) (earlier.grows _ _)
  keeps next code place within := by
    have inside : place < (second next code).code.size :=
      Nat.lt_of_lt_of_le within (later.grows next code)
    exact (earlier.keeps _ _ place inside).trans (later.keeps next code place within)
  sound next code program holds steps before taken rest accepts := by
    have front := holds.later (later.grows next code)
    have back := holds.earlier (earlier.grows _ _) (earlier.keeps _ _)
    obtain ⟨fewer, less, left, right, whole, matched, going⟩ :=
      earlier.sound _ _ program front steps before taken rest accepts
    obtain ⟨fewest, least, remaining⟩ := later.sound next code program back fewer _ right rest going
    refine ⟨fewest, Nat.le_trans least less, ?_⟩
    rw [Meaning.andThen_assoc]
    exact ⟨left, right, whole, matched, remaining⟩
  complete next code program holds before taken rest finds := by
    have front := holds.later (later.grows next code)
    have back := holds.earlier (earlier.grows _ _) (earlier.keeps _ _)
    rw [Meaning.andThen_assoc] at finds
    refine earlier.complete _ _ program front before taken rest ?_
    exact Meaning.andThen_mono id (later.complete next code program back _ _ _) finds

/-- Two fragments that go on at one place, with a split in front of them. -/
theorem choice (earlier : Implements first one) (later : Implements second other) :
    Implements (fun next code =>
        emit (first next (second next code).code).code
          (.split (first next (second next code).code).entry (second next code).entry))
      fun before taken rest => one before taken rest ∨ other before taken rest where
  grows next code := by
    have inner := later.grows next code
    have outer := earlier.grows next (second next code).code
    simp only [emit, Array.size_push]
    omega
  keeps next code place within := by
    have inner := later.grows next code
    have outer := earlier.grows next (second next code).code
    have inside : place < (second next code).code.size := by omega
    calc
      _ = (first next (second next code).code).code[place]? := getElem?_push_of_lt _ (by omega)
      _ = (second next code).code[place]? := earlier.keeps _ _ place inside
      _ = code[place]? := later.keeps next code place within
  sound next code program holds steps before taken rest accepts := by
    have inner := later.grows next code
    have outer := earlier.grows next (second next code).code
    obtain ⟨here, above⟩ := holds_push (Nat.le_trans inner outer) holds
    have front := above.later inner
    have back := above.earlier outer (earlier.keeps _ _)
    obtain ⟨fewer, less, accepts | accepts⟩ := Program.accepts_split here accepts
    · obtain ⟨fewest, least, left, right, whole, matched, going⟩ :=
        earlier.sound _ _ program front fewer before taken rest accepts
      exact ⟨fewest, by omega, left, right, whole, .inl matched, going⟩
    · obtain ⟨fewest, least, left, right, whole, matched, going⟩ :=
        later.sound next code program back fewer before taken rest accepts
      exact ⟨fewest, by omega, left, right, whole, .inr matched, going⟩
  complete next code program holds before taken rest finds := by
    have inner := later.grows next code
    have outer := earlier.grows next (second next code).code
    obtain ⟨here, above⟩ := holds_push (Nat.le_trans inner outer) holds
    have front := above.later inner
    have back := above.earlier outer (earlier.keeps _ _)
    obtain ⟨left, right, whole, matched | matched, going⟩ := finds
    · exact Program.finds_split here (.inl
        (earlier.complete _ _ program front before taken rest ⟨left, right, whole, matched, going⟩))
    · exact Program.finds_split here (.inr
        (later.complete next code program back before taken rest
          ⟨left, right, whole, matched, going⟩))

/-- A branch in front of a fragment. -/
theorem optional (inner : Implements body meaning) (greedy : Bool) :
    Implements (emitOptional body greedy)
      fun before taken rest => taken = [] ∨ meaning before taken rest where
  grows next code := by
    have grown := inner.grows next code
    simp only [emitOptional, emit, Array.size_push]
    omega
  keeps next code place within := by
    have grown := inner.grows next code
    calc
      _ = (body next code).code[place]? := getElem?_push_of_lt _ (by omega)
      _ = code[place]? := inner.keeps next code place within
  sound next code program holds steps before taken rest accepts := by
    obtain ⟨here, above⟩ := holds_push (inner.grows next code) holds
    obtain ⟨fewer, less, accepts | accepts⟩ := Program.accepts_branch here accepts
    · obtain ⟨fewest, least, left, right, whole, matched, going⟩ :=
        inner.sound next code program above fewer before taken rest accepts
      exact ⟨fewest, by omega, left, right, whole, .inr matched, going⟩
    · exact ⟨fewer, Nat.le_of_lt less, [], taken, rfl, .inl rfl, accepts⟩
  complete next code program holds before taken rest finds := by
    obtain ⟨here, above⟩ := holds_push (inner.grows next code) holds
    obtain ⟨left, right, rfl, rfl | matched, going⟩ := finds
    · exact Program.finds_branch here (.inr going)
    · exact Program.finds_branch here (.inl
        (inner.complete next code program above before _ rest ⟨left, right, rfl, matched, going⟩))

/-! ## Loops -/

section Loops

variable (inner : Implements body meaning) {next : Nat} {code : Array Instruction}
  {program : Program} {greedy : Bool} {before : Option Character} {taken rest : List Character}

include inner

/-- The place where a loop decides to enter its body again is behind the code before it. -/
theorem lt_size_loop : code.size < (body code.size (code.push .accept)).code.size := by
  have grown := inner.grows code.size (code.push .accept)
  rw [Array.size_push] at grown
  omega

/-- A program that holds a loop holds its body and decides in front of it. -/
theorem holds_loop (holds : program.Holds (emitLoop body greedy next code).code code.size) :
    program.code[code.size]? =
        some (branch greedy (body code.size (code.push .accept)).entry next) ∧
      program.Holds (body code.size (code.push .accept)).code (code.push .accept).size := by
  have within := @lt_size_loop _ _ inner code
  constructor
  · rw [holds code.size (Nat.le_refl _) (by simpa [emitLoop] using within)]
    simp [emitLoop, within]
  · intro place after inside
    rw [Array.size_push] at after
    rw [holds place (by omega) (by simpa [emitLoop] using inside)]
    simp only [emitLoop, Array.getElem?_setIfInBounds]
    rw [if_neg (by omega)]

/-- A match from the place where a loop decides consists of rounds and of what goes on after
them. -/
theorem accepts_loop (holds : program.Holds (emitLoop body greedy next code).code code.size)
    {steps : Nat} (accepts : program.Accepts steps code.size before taken rest) :
    ∃ fewer ≤ steps,
      (meaning.often fun _ => True).andThen (program.Accepts fewer next) before taken rest := by
  obtain ⟨here, within⟩ := inner.holds_loop holds
  -- A round may take no character, so the induction is on the number of steps.
  induction steps using Nat.strong_induction_on generalizing before taken with
  | h steps ih =>
    obtain ⟨fewer, less, accepts | accepts⟩ := Program.accepts_branch here accepts
    · obtain ⟨fewest, least, left, right, whole, round, again⟩ :=
        inner.sound _ _ program within fewer before taken rest accepts
      obtain ⟨last, bound, later⟩ := ih fewest (by omega) again
      have both : meaning.andThen ((meaning.often fun _ => True).andThen
          (program.Accepts last next)) before taken rest := ⟨left, right, whole, round, later⟩
      rw [← Meaning.andThen_assoc, Meaning.andThen_often] at both
      exact ⟨last, by omega, Meaning.andThen_mono (Meaning.often_mono fun _ _ => trivial) id both⟩
    · exact ⟨fewer, Nat.le_of_lt less, [], taken, rfl, ⟨0, trivial, rfl⟩, accepts⟩

/-- The place where a loop decides finds rounds and what goes on after them. -/
theorem finds_loop (holds : program.Holds (emitLoop body greedy next code).code code.size)
    {count : Nat} (finds : (meaning.times count).andThen (program.Finds next) before taken rest) :
    program.Finds code.size before taken rest := by
  obtain ⟨here, within⟩ := inner.holds_loop holds
  induction count generalizing before taken rest with
  | zero =>
    rw [Meaning.times, Meaning.nothing_andThen] at finds
    exact Program.finds_branch here (.inr finds)
  | succ count ih =>
    rw [Meaning.times, Meaning.andThen_assoc] at finds
    refine Program.finds_branch here (.inl (inner.complete _ _ program within _ _ _ ?_))
    exact Meaning.andThen_mono id ih finds

/-- A loop leaves the code before it as it is. -/
theorem keeps_loop (place : Nat) (before : place < code.size) :
    (emitLoop body greedy next code).code[place]? = code[place]? := by
  have inside : place < (code.push .accept).size := by
    rw [Array.size_push]
    omega
  calc
    _ = (body code.size (code.push .accept)).code[place]? := by
      simp only [emitLoop, Array.getElem?_setIfInBounds]
      rw [if_neg (by omega)]
    _ = (code.push .accept)[place]? := inner.keeps _ _ place inside
    _ = code[place]? := getElem?_push_of_lt _ before

/-- A loop adds code. -/
theorem grows_loop : code.size ≤ (emitLoop body greedy next code).code.size := by
  have within := @lt_size_loop _ _ inner code
  simp only [emitLoop, Array.size_setIfInBounds]
  omega

end Loops

/-- A loop that starts with its body takes at least one round. -/
theorem loop (inner : Implements body meaning) (greedy : Bool) :
    Implements (emitLoop body greedy) (meaning.often fun count => 1 ≤ count) where
  grows _ _ := inner.grows_loop
  keeps _ _ := inner.keeps_loop
  sound next code program holds steps before taken rest accepts := by
    obtain ⟨_, within⟩ := inner.holds_loop holds
    obtain ⟨fewer, less, left, right, whole, round, again⟩ :=
      inner.sound _ _ program within steps before taken rest accepts
    obtain ⟨last, bound, later⟩ := inner.accepts_loop holds again
    have both : meaning.andThen ((meaning.often fun _ => True).andThen
        (program.Accepts last next)) before taken rest := ⟨left, right, whole, round, later⟩
    rw [← Meaning.andThen_assoc, Meaning.andThen_often] at both
    exact ⟨last, Nat.le_trans bound less, both⟩
  complete next code program holds before taken rest finds := by
    obtain ⟨_, within⟩ := inner.holds_loop holds
    obtain ⟨left, right, whole, ⟨_ | count, positive, rounds⟩, going⟩ := finds
    · contradiction
    · have both : (meaning.andThen (meaning.times count)).andThen (program.Finds next) before taken
          rest := ⟨left, right, whole, rounds, going⟩
      rw [Meaning.andThen_assoc] at both
      exact inner.complete _ _ program within before taken rest
        (Meaning.andThen_mono id (inner.finds_loop holds) both)

/-- Any number of rounds, whichever way the loop is entered. -/
theorem star (inner : Implements body meaning) (nullable greedy : Bool) :
    Implements (emitStar body nullable greedy) (meaning.often fun _ => True) := by
  cases nullable with
  | true =>
    have same : (fun before taken rest => taken = [] ∨
        meaning.often (fun count => 1 ≤ count) before taken rest) =
        meaning.often fun _ => True := by
      funext before taken rest
      refine propext ⟨?_, ?_⟩
      · rintro (rfl | ⟨count, _, rounds⟩)
        · exact ⟨0, trivial, rfl⟩
        · exact ⟨count, trivial, rounds⟩
      · rintro ⟨_ | count, _, rounds⟩
        · exact .inl rounds
        · exact .inr ⟨count + 1, Nat.le_add_left 1 count, rounds⟩
    rw [← same]
    exact (inner.loop greedy).optional greedy
  | false =>
    refine ⟨fun _ _ => inner.grows_loop, fun _ _ => inner.keeps_loop, ?_, ?_⟩
    · intro next code program holds steps before taken rest accepts
      exact inner.accepts_loop holds accepts
    · intro next code program holds before taken rest finds
      obtain ⟨left, right, whole, ⟨count, _, rounds⟩, going⟩ := finds
      exact inner.finds_loop holds ⟨left, right, whole, rounds, going⟩

/-! ## Counted rounds -/

/-- A body a number of times in a row. -/
theorem times (inner : Implements body meaning) (count : Nat) :
    Implements (emitTimes body count) (meaning.times count) := by
  induction count with
  | zero => exact skip
  | succ count ih =>
    rw [Meaning.times_succ]
    exact ih.sequence inner

section UpTo

variable (inner : Implements body meaning) {greedy : Bool} {next : Nat}

include inner

/-- Rounds inside one another add code. -/
theorem grows_upTo (count inside : Nat) (code : Array Instruction) :
    code.size ≤ (emitUpTo body greedy next count inside code).code.size := by
  induction count generalizing inside code with
  | zero => exact Nat.le_refl _
  | succ count ih =>
    have grown := inner.grows inside code
    have later := ih (emit (body inside code).code
      (branch greedy (body inside code).entry next)).entry
      (emit (body inside code).code (branch greedy (body inside code).entry next)).code
    rw [emitUpTo]
    simp only [emit, Array.size_push] at later ⊢
    omega

/-- Rounds inside one another leave the code before them as it is. -/
theorem keeps_upTo (count inside : Nat) (code : Array Instruction) (place : Nat)
    (within : place < code.size) :
    (emitUpTo body greedy next count inside code).code[place]? = code[place]? := by
  induction count generalizing inside code with
  | zero => rfl
  | succ count ih =>
    have grown := inner.grows inside code
    rw [emitUpTo, ih _ _ (by simp only [emit, Array.size_push]; omega)]
    calc
      _ = (body inside code).code[place]? := getElem?_push_of_lt _ (by omega)
      _ = code[place]? := inner.keeps inside code place within

variable {program : Program} {before : Option Character} {taken rest : List Character}

/-- A program that holds rounds inside one another holds the last round, decides in front of it,
and holds the rounds around it. -/
theorem holds_upTo {count inside : Nat} {code : Array Instruction}
    (holds : program.Holds (emitUpTo body greedy next (count + 1) inside code).code code.size) :
    let last := body inside code
    let outer := emit last.code (branch greedy last.entry next)
    program.code[outer.entry]? = some (branch greedy last.entry next) ∧
      program.Holds last.code code.size ∧
      program.Holds (emitUpTo body greedy next count outer.entry outer.code).code
        outer.code.size := by
  have grown := inner.grows inside code
  obtain ⟨here, above⟩ :=
    holds_push grown (holds.earlier (inner.grows_upTo _ _ _) (inner.keeps_upTo _ _ _))
  refine ⟨here, above, holds.later ?_⟩
  simp only [emit, Array.size_push]
  omega

/-- A match of rounds inside one another leaves after some of them, or takes them all. -/
theorem accepts_upTo {count inside : Nat} {code : Array Instruction} {steps : Nat}
    (holds : program.Holds (emitUpTo body greedy next count inside code).code code.size)
    (accepts : program.Accepts steps (emitUpTo body greedy next count inside code).entry before
      taken rest) :
    ∃ fewer ≤ steps,
      (meaning.often fun rounds => rounds < count).andThen (program.Accepts fewer next) before taken
        rest ∨
      (meaning.times count).andThen (program.Accepts fewer inside) before taken rest := by
  induction count generalizing inside code steps with
  | zero =>
    refine ⟨steps, Nat.le_refl _, .inr ?_⟩
    rwa [Meaning.times, Meaning.nothing_andThen]
  | succ count ih =>
    obtain ⟨here, above, further⟩ := inner.holds_upTo holds
    obtain ⟨fewer, less, leaves | ⟨left, right, whole, rounds, accepts⟩⟩ := ih further accepts
    · have some := Meaning.andThen_mono (Meaning.often_mono fun _ => Nat.lt_succ_of_lt) id leaves
      exact ⟨fewer, less, .inl some⟩
    · obtain ⟨fewest, least, accepts | accepts⟩ := Program.accepts_branch here accepts
      · obtain ⟨last, bound, later⟩ :=
          inner.sound inside code program above fewest _ right rest accepts
        refine ⟨last, by omega, .inr ?_⟩
        rw [Meaning.times_succ, Meaning.andThen_assoc]
        exact ⟨left, right, whole, rounds, later⟩
      · exact ⟨fewest, by omega, .inl
          ⟨left, right, whole, ⟨count, Nat.lt_succ_self _, rounds⟩, accepts⟩⟩

/-- Rounds inside one another find what follows some of them or all of them. -/
theorem finds_upTo {count inside : Nat} {code : Array Instruction}
    (holds : program.Holds (emitUpTo body greedy next count inside code).code code.size)
    (finds : (meaning.often fun rounds => rounds < count).andThen (program.Finds next) before taken
        rest ∨
      (meaning.times count).andThen (program.Finds inside) before taken rest) :
    program.Finds (emitUpTo body greedy next count inside code).entry before taken rest := by
  induction count generalizing inside code with
  | zero =>
    obtain ⟨_, _, _, ⟨_, none, _⟩, _⟩ | finds := finds
    · contradiction
    · rwa [Meaning.times, Meaning.nothing_andThen] at finds
  | succ count ih =>
    obtain ⟨here, above, further⟩ := inner.holds_upTo holds
    refine ih further ?_
    obtain ⟨left, right, whole, ⟨rounds, few, matched⟩, finds⟩ | finds := finds
    · obtain fewer | rfl := Nat.lt_succ_iff_lt_or_eq.mp few
      · exact .inl ⟨left, right, whole, ⟨rounds, fewer, matched⟩, finds⟩
      · exact .inr ⟨left, right, whole, matched, Program.finds_branch here (.inr finds)⟩
    · rw [Meaning.times_succ, Meaning.andThen_assoc] at finds
      refine .inr (Meaning.andThen_mono id (fun later => ?_) finds)
      exact Program.finds_branch here (.inl (inner.complete inside code program above _ _ _ later))

end UpTo

/-- A body at most a number of times. -/
theorem upTo (inner : Implements body meaning) (greedy : Bool) (count : Nat) :
    Implements (fun next code => emitUpTo body greedy next count next code)
      (meaning.often fun rounds => rounds ≤ count) where
  grows _ _ := inner.grows_upTo _ _ _
  keeps _ _ := inner.keeps_upTo _ _ _
  sound next code program holds steps before taken rest accepts := by
    obtain ⟨fewer, less, some | ⟨left, right, whole, all, going⟩⟩ :=
      inner.accepts_upTo holds accepts
    · exact ⟨fewer, less, Meaning.andThen_mono (Meaning.often_mono fun _ => Nat.le_of_lt) id some⟩
    · exact ⟨fewer, less, left, right, whole, ⟨count, Nat.le_refl _, all⟩, going⟩
  complete next code program holds before taken rest finds := by
    obtain ⟨left, right, whole, ⟨rounds, few, matched⟩, going⟩ := finds
    refine inner.finds_upTo holds ?_
    obtain fewer | rfl := Nat.lt_or_eq_of_le few
    · exact .inl ⟨left, right, whole, ⟨rounds, fewer, matched⟩, going⟩
    · exact .inr ⟨left, right, whole, matched, going⟩

end Implements

/-! ## Whole patterns -/

/-- No repetition has a largest count below its least one. -/
def WellCounted : Pattern → Prop
  | .group body => body.WellCounted
  | .sequence first second => first.WellCounted ∧ second.WellCounted
  | .choice first second => first.WellCounted ∧ second.WellCounted
  | .star body _ => body.WellCounted
  | .plus body _ => body.WellCounted
  | .optional body _ => body.WellCounted
  | .counted body least most _ => body.WellCounted ∧ ∀ limit ∈ most, least ≤ limit
  | _ => True

/-- The code of a pattern means what the pattern does. -/
theorem implements_emitPattern {pattern : Pattern} (counted : pattern.WellCounted) :
    Implements pattern.emitPattern (Matches pattern) := by
  induction pattern with
  | empty =>
    rw [matches_empty]
    exact .skip
  | literal codePoint folded =>
    have same : Matches (.literal codePoint folded) =
        Matches (.oneOf (literalSet codePoint folded)) := by
      funext before taken rest
      exact propext (Matches.literal_iff.trans Matches.oneOf_iff.symm)
    rw [same]
    exact .consume (literalSet codePoint folded)
  | oneOf choices => exact .consume choices
  | anchor assertion => exact .check assertion
  | group body ih =>
    have same : Matches (.group body) = Matches body := by
      funext before taken rest
      exact propext Matches.group_iff
    rw [same]
    exact ih counted
  | sequence first second earlier later =>
    rw [matches_sequence]
    exact (earlier counted.1).sequence (later counted.2)
  | choice first second earlier later =>
    have same : Matches (.choice first second) = fun before taken rest =>
        Matches first before taken rest ∨ Matches second before taken rest := by
      funext before taken rest
      exact propext Matches.choice_iff
    rw [same]
    exact (earlier counted.1).choice (later counted.2)
  | star body greedy ih =>
    rw [matches_star]
    exact (ih counted).star _ _
  | plus body greedy ih =>
    rw [matches_plus]
    exact (ih counted).loop _
  | optional body greedy ih =>
    have same : Matches (.optional body greedy) =
        fun before taken rest => taken = [] ∨ Matches body before taken rest := by
      funext before taken rest
      exact propext Matches.optional_iff
    rw [same]
    exact (ih counted).optional greedy
  | counted body least most greedy ih =>
    have inner := ih counted.1
    rw [matches_counted]
    cases most with
    | none =>
      cases least with
      | zero =>
        have every (count : Nat) : (0 ≤ count ∧ ∀ limit ∈ none, count ≤ limit) ↔ True := by simp
        rw [Meaning.often_congr every]
        exact inner.star _ _
      | succ rounds =>
        have both := (inner.times rounds).sequence (inner.loop greedy)
        have enough (count : Nat) : (rounds ≤ count ∧ 1 ≤ count - rounds) ↔
            rounds + 1 ≤ count ∧ ∀ limit ∈ none, count ≤ limit := by
          simp only [Option.not_mem_none, false_imp_iff, implies_true, and_true]
          omega
        rwa [Meaning.times_andThen_often, Meaning.often_congr enough] at both
    | some most =>
      have ordered : least ≤ most := counted.2 most rfl
      have both := (inner.times least).sequence (inner.upTo greedy (most - least))
      have between (count : Nat) : (least ≤ count ∧ count - least ≤ most - least) ↔
          least ≤ count ∧ ∀ limit ∈ some most, count ≤ limit := by
        simp only [Option.mem_def, Option.some.injEq, forall_eq']
        omega
      rwa [Meaning.times_andThen_often, Meaning.often_congr between] at both

/-- A program compiled from a pattern finds at its start what the pattern matches. -/
theorem finds_compile_iff {pattern : Pattern} (counted : pattern.WellCounted)
    {before : Option Character} {taken rest : List Character} :
    pattern.compile.Finds pattern.compile.entry before taken rest ↔
      pattern.Matches before taken rest := by
  have meant := implements_emitPattern counted
  have holds : pattern.compile.Holds (pattern.emitPattern 0 #[.accept]).code 1 :=
    fun _ _ _ => rfl
  have stop : pattern.compile.code[0]? = some .accept := meant.keeps 0 #[.accept] 0 Nat.one_pos
  constructor
  · rintro ⟨steps, accepts⟩
    obtain ⟨fewer, _, left, right, rfl, matched, ended⟩ :=
      meant.sound 0 #[.accept] _ holds steps before taken rest accepts
    cases ended with
    | accept => simpa using matched
    | silent follows _ => simp [Program.silent, stop] at follows
    | take takes _ => simp [Program.take?, stop] at takes
  · intro matched
    refine meant.complete 0 #[.accept] _ holds before taken rest ⟨taken, [], ?_, matched, 0, ?_⟩
    · rw [List.append_nil]
    · exact .accept (by simp [Program.isAccepting, stop])

/-- The match that a compiled pattern gives is one of the pattern. -/
theorem matches_of_match?_compile {pattern : Pattern} (counted : pattern.WellCounted)
    {characters : List Character} {length : Nat}
    (found : pattern.compile.match? characters = some length) :
    pattern.Matches none (characters.take length) (characters.drop length) :=
  (finds_compile_iff counted).mp (Program.finds_of_match?_eq_some found)

/-- A compiled pattern finds nothing exactly where the pattern matches nothing. -/
theorem match?_compile_eq_none_iff {pattern : Pattern} (counted : pattern.WellCounted)
    {characters : List Character} :
    pattern.compile.match? characters = none ↔
      ∀ taken rest, characters = taken ++ rest → ¬pattern.Matches none taken rest := by
  constructor
  · intro missed taken rest whole matched
    exact Program.not_finds_of_match?_eq_none missed whole ((finds_compile_iff counted).mpr matched)
  · intro unmatched
    refine Option.eq_none_iff_forall_ne_some.mpr fun length found => ?_
    exact unmatched _ _ (List.take_append_drop length characters).symm
      (matches_of_match?_compile counted found)

end Pattern

end Aml
