import Mathlib
import Aml.Pattern.Parser
import Aml.Proofs.Pattern.Compile

/-!
# Counts of patterns that were read

Reading refuses a repetition whose largest count is below its least one, so every pattern that is
read has its counts in order (`Pattern.wellCounted_of_parse`). The invariant is on the items and the
alternatives of all open groups: each step keeps it, and so does reading as a whole.
-/
namespace Aml.Pattern

/-! ## Readings that succeed -/

/-- A reading that succeeds in steps succeeds in each. -/
theorem ok_of_bind {α β : Type} {first : Except PatternError α}
    {later : α → Except PatternError β} {result : β} (read : first >>= later = .ok result) :
    ∃ value, first = .ok value ∧ later value = .ok result := by
  cases first with
  | error fault => contradiction
  | ok value => exact ⟨value, rfl, read⟩

/-- Whatever a reading gives has a property. -/
def Ensures {α : Type} (holds : α → Prop) (reading : Except PatternError α) : Prop :=
  ∀ value, reading = .ok value → holds value

namespace Ensures

variable {α β : Type} {holds : α → Prop}

/-- A fault gives nothing. -/
theorem error {fault : PatternError} : Ensures holds (.error fault) := by
  intro value read
  contradiction

/-- A result has the property. -/
theorem ok {value : α} (known : holds value) : Ensures holds (.ok value) := by
  rintro _ ⟨⟩
  exact known

/-- The last of several readings in a row gives the result. -/
theorem bind {first : Except PatternError β} {later : β → Except PatternError α}
    (others : ∀ value, first = .ok value → Ensures holds (later value)) :
    Ensures holds (first >>= later) := by
  intro result read
  obtain ⟨value, given, read⟩ := ok_of_bind read
  exact others value given result read

/-- Either branch may give the result. -/
theorem ite {condition : Prop} [Decidable condition] {short long : Except PatternError α}
    (taken : condition → Ensures holds short) (other : ¬condition → Ensures holds long) :
    Ensures holds (if condition then short else long) := by
  split
  · exact taken ‹_›
  · exact other ‹_›

end Ensures

/-! ## Groups and repetitions -/

/-- Closing a group adds its pattern to the group around it. -/
theorem exists_of_closeGroup {whole : Text} {state next : State}
    (closed : state.closeGroup whole = .ok next) :
    ∃ level enclosing, state.enclosing = level :: enclosing ∧
      next = (⟨state.level.outside, level, enclosing, none⟩ : State).push
        (if state.level.marks then .group state.body else state.body) := by
  unfold State.closeGroup at closed
  split at closed
  · contradiction
  · rename_i level enclosing around
    dsimp only at closed
    generalize (if state.level.marks then .group state.body else state.body) = item at closed ⊢
    split at closed
    · contradiction
    · exact ⟨level, enclosing, around, (Except.ok.inj closed).symm⟩

/-- Whether a repetition takes as little as it can, which a mark after it turns round, and the
source after the mark. -/
def lazyMark (lazy : Bool) : List Character → Bool × List Character
  | ⟨'?', _⟩ :: rest => (!lazy, rest)
  | rest => (lazy, rest)

/-- A repetition replaces the latest item, which is no repetition, within the limits. -/
theorem repetition_eq_ok_iff {whole : Text} {state : State} {source rest : List Character}
    {apply : Pattern → Bool → Pattern} {found : State × List Character} :
    state.repetition whole source rest apply = .ok found ↔
      ∃ item items, state.lastRepeat = none ∧ state.level.items = item :: items ∧
        let mark := lazyMark state.options.lazy rest
        let repeated := apply item !mark.1
        repeated.height ≤ heightLimit ∧ repeated.fitsRepeats repeatLimit = true ∧
          found = ({ state with
            level := { state.level with items := repeated :: items }
            lastRepeat := some source }, mark.2) := by
  unfold State.repetition
  split
  rename_i lazy after marked
  replace marked : lazyMark state.options.lazy rest = (lazy, after) := marked
  rw [marked]
  cases state.lastRepeat with
  | some start => simp
  | none =>
    cases state.level.items with
    | nil => simp
    | cons item items =>
      dsimp only
      constructor
      · intro read
        split at read
        · contradiction
        · split at read
          · contradiction
          · rename_i low fits
            obtain rfl := Except.ok.inj read
            exact ⟨item, items, rfl, rfl, Nat.le_of_not_lt low, by simpa using fits, rfl⟩
      · rintro ⟨_, _, _, same, low, fits, rfl⟩
        obtain ⟨rfl, rfl⟩ := List.cons.inj same
        rw [if_neg (Nat.not_lt.mpr low), if_neg (by simpa using fits)]

/-- A backslash is followed by a character. -/
theorem exists_of_backslash {state : State} {source : List Character}
    {found : State × List Character} (read : backslash state source = .ok found) :
    ∃ mark letter rest, source = mark :: letter :: rest := by
  obtain - | ⟨mark, - | ⟨letter, rest⟩⟩ := source
  · cases read
  · have unnamed : propertyClass? state.options [mark] = .ok none := by
      simp only [propertyClass?]
      rfl
    have unlettered : letterClass? state.options [mark] = none := by simp [letterClass?]
    obtain ⟨property, absent, read⟩ := ok_of_bind read
    cases unnamed.symm.trans absent
    dsimp only at read
    rw [unlettered] at read
    cases read
  · exact ⟨mark, letter, rest, rfl⟩

/-- The end of a source is reached outside every group. -/
theorem parseLoop_nil_eq_ok {whole : Text} {fuel : Nat} {state : State} {pattern : Pattern}
    (read : parseLoop whole fuel state [] = .ok pattern) :
    state.enclosing = [] ∧ pattern = state.body := by
  have idle : parseLoop whole fuel state [] = parseLoop whole 0 state [] := by
    cases fuel <;> rfl
  rw [idle, parseLoop] at read
  split at read
  · split at read
    · contradiction
    · exact ⟨‹_›, (Except.ok.inj read).symm⟩
  · contradiction

/-! ## Counts in order -/

/-- The counts of a sequence are in order when those of its parts are. -/
theorem wellCounted_ofSequence {patterns : List Pattern}
    (counted : ∀ pattern ∈ patterns, pattern.WellCounted) : (ofSequence patterns).WellCounted := by
  fun_induction ofSequence patterns with
  | case1 => exact trivial
  | case2 pattern => exact counted pattern List.mem_cons_self
  | case3 pattern rest _ ih =>
    obtain ⟨first, later⟩ := List.forall_mem_cons.mp counted
    exact ⟨first, ih later⟩

/-- The counts of a choice are in order when those of its alternatives are. -/
theorem wellCounted_ofChoices {patterns : List Pattern}
    (counted : ∀ pattern ∈ patterns, pattern.WellCounted) : (ofChoices patterns).WellCounted := by
  fun_induction ofChoices patterns with
  | case1 => exact trivial
  | case2 pattern => exact counted pattern List.mem_cons_self
  | case3 pattern rest _ ih =>
    obtain ⟨first, later⟩ := List.forall_mem_cons.mp counted
    exact ⟨first, ih later⟩

/-- All patterns of a group that were read so far have their counts in order. -/
structure Level.WellCounted (level : Level) : Prop where
  /-- Those of the finished alternatives. -/
  alternatives : ∀ pattern ∈ level.alternatives, pattern.WellCounted
  /-- Those of the current alternative. -/
  items : ∀ pattern ∈ level.items, pattern.WellCounted

/-- All patterns that were read so far have their counts in order. -/
structure State.WellCounted (state : State) : Prop where
  /-- Those of the innermost group. -/
  level : state.level.WellCounted
  /-- Those of the groups around it. -/
  enclosing : ∀ level ∈ state.enclosing, level.WellCounted

namespace State.WellCounted

variable {state : State} (counted : state.WellCounted)

include counted

/-- An item is added to the innermost group. -/
theorem push {item : Pattern} (known : item.WellCounted) : (state.push item).WellCounted :=
  ⟨⟨counted.level.alternatives, List.forall_mem_cons.mpr ⟨known, counted.level.items⟩⟩,
    counted.enclosing⟩

/-- What is read of the innermost group is a pattern. -/
theorem sequence : (ofSequence state.level.items.reverse).WellCounted :=
  wellCounted_ofSequence fun pattern member =>
    counted.level.items pattern (List.mem_reverse.mp member)

/-- The innermost group as a whole is a pattern. -/
theorem body : state.body.WellCounted := by
  refine wellCounted_ofChoices fun pattern member => ?_
  obtain rfl | earlier := List.mem_cons.mp (List.mem_reverse.mp member)
  · exact counted.sequence
  · exact counted.level.alternatives pattern earlier

/-- The next alternative is started. -/
theorem alternate : state.alternate.WellCounted :=
  ⟨⟨List.forall_mem_cons.mpr ⟨counted.sequence, counted.level.alternatives⟩, List.forall_mem_nil _⟩,
    counted.enclosing⟩

/-- A group is opened. -/
theorem openGroup (marks : Bool) (options : Options) :
    (state.openGroup marks options).WellCounted :=
  ⟨⟨List.forall_mem_nil _, List.forall_mem_nil _⟩,
    List.forall_mem_cons.mpr ⟨counted.level, counted.enclosing⟩⟩

/-- A group is closed. -/
theorem closeGroup (whole : Text) : Ensures State.WellCounted (state.closeGroup whole) := by
  intro next closed
  obtain ⟨level, enclosing, around, rfl⟩ := exists_of_closeGroup closed
  have levels := counted.enclosing
  rw [around] at levels
  obtain ⟨outer, others⟩ := List.forall_mem_cons.mp levels
  have resumed : State.WellCounted ⟨state.level.outside, level, enclosing, none⟩ := ⟨outer, others⟩
  refine resumed.push ?_
  split
  · exact counted.body
  · exact counted.body

/-- Literals are added. -/
theorem literals (characters : List Character) :
    Ensures State.WellCounted (state.literals characters) := by
  induction characters generalizing state with
  | nil => exact .ok counted
  | cons character rest ih => exact .ite (fun _ => .error) fun _ => ih (counted.push trivial)

/-- The latest item is repeated. -/
theorem repetition (whole : Text) (source rest : List Character) {apply : Pattern → Bool → Pattern}
    (ordered : ∀ item greedy, item.WellCounted → (apply item greedy).WellCounted) :
    Ensures (fun found => found.1.WellCounted) (state.repetition whole source rest apply) := by
  intro found read
  obtain ⟨item, items, _, latest, _, _, rfl⟩ := repetition_eq_ok_iff.mp read
  have known := counted.level.items
  rw [latest] at known
  obtain ⟨first, others⟩ := List.forall_mem_cons.mp known
  exact ⟨⟨counted.level.alternatives, List.forall_mem_cons.mpr ⟨ordered _ _ first, others⟩⟩,
    counted.enclosing⟩

/-- Options are switched, for a group or for what follows. -/
theorem optionLetters (options : Options) (negated seen : Bool) (source : List Character) :
    Ensures (fun found => ∀ next, found = .ok next → next.1.WellCounted)
      (optionLetters state options negated seen source) := by
  induction source generalizing options negated seen with
  | nil => exact .ok fun _ same => by contradiction
  | cons character rest ih =>
    rw [Pattern.optionLetters]
    refine .ite (fun _ => .error) fun _ => ?_
    have failed : Ensures (fun found : Except (List Character) (State × List Character) =>
        ∀ next, found = .ok next → next.1.WellCounted) (.ok (.error rest)) :=
      .ok fun _ same => by contradiction
    split
    · exact ih _ _ _
    · exact ih _ _ _
    · exact ih _ _ _
    · exact ih _ _ _
    · exact .ite (fun _ => failed) fun _ => ih _ _ _
    · refine .ite (fun _ => failed) fun _ => .ok ?_
      rintro _ ⟨⟩
      exact counted.openGroup false options
    · refine .ite (fun _ => failed) fun _ => .ok ?_
      rintro _ ⟨⟩
      exact ⟨counted.level, counted.enclosing⟩
    · exact failed

/-- A named group is opened. -/
theorem groupName (source inner : List Character) :
    Ensures (fun found => found.1.WellCounted) (groupName state source inner) := by
  unfold Pattern.groupName
  split
  · exact .bind fun _ _ => .error
  · exact .bind fun _ _ => .ite (fun _ => .ok (counted.openGroup _ _)) fun _ => .error

/-- A special group is opened. -/
theorem specialGroup (source : List Character) :
    Ensures (fun found => found.1.WellCounted) (specialGroup state source) := by
  unfold Pattern.specialGroup
  split
  · exact counted.groupName _ _
  · exact counted.groupName _ _
  · refine .bind fun letters read => ?_
    cases letters with
    | error place => exact .error
    | ok found => exact .ok (counted.optionLetters _ _ _ _ _ read found rfl)

/-- What follows a backslash is added. -/
theorem backslash (source : List Character) :
    Ensures (fun found => found.1.WellCounted) (backslash state source) := by
  intro found read
  obtain ⟨mark, ⟨letter, bytes⟩, rest, rfl⟩ := exists_of_backslash read
  revert found
  change Ensures (fun found : State × List Character => found.1.WellCounted) _
  unfold Pattern.backslash
  dsimp only
  split
  · exact .ok (counted.push trivial)
  · exact .ok (counted.push trivial)
  · exact .ok (counted.push trivial)
  · exact .error
  · exact .bind fun next read => .ok (counted.literals _ next read)
  · exact .ok (counted.push trivial)
  · refine .bind fun property _ => ?_
    cases property with
    | none =>
      dsimp only
      split
      · exact .ok (counted.push trivial)
      · exact .bind fun _ _ => .ok (counted.push trivial)
    | some found => exact .ok (counted.push trivial)

/-- One step keeps the counts in order. -/
theorem step (whole : Text) (character : Character) (rest : List Character) :
    Ensures (fun found => found.1.WellCounted) (step whole state character rest) := by
  have plain : State.WellCounted { state with lastRepeat := none } :=
    ⟨counted.level, counted.enclosing⟩
  unfold Pattern.step
  dsimp only
  split
  · split
    · exact plain.specialGroup _
    · exact .ok (plain.openGroup _ _)
  · exact .ok plain.alternate
  · exact .bind fun next closed => .ok (plain.closeGroup whole next closed)
  · exact .ok (plain.push trivial)
  · exact .ok (plain.push trivial)
  · exact .ok (plain.push trivial)
  · exact .bind fun _ _ => .ok (plain.push trivial)
  · exact counted.repetition _ _ _ fun _ _ => id
  · exact counted.repetition _ _ _ fun _ _ => id
  · exact counted.repetition _ _ _ fun _ _ => id
  · split
    · exact .ok (plain.push trivial)
    · rename_i least most after _
      refine .ite (fun _ => .error) fun allowed => ?_
      refine counted.repetition _ _ _ fun item _ known => ⟨known, ?_⟩
      rintro limit ⟨⟩
      simp only [Option.getD_some] at allowed
      omega
  · exact plain.backslash _
  · exact .bind fun _ _ => .ok (plain.push trivial)

end State.WellCounted

/-- Reading on to the end keeps the counts in order. -/
theorem wellCounted_of_parseLoop {whole : Text} {fuel : Nat} {state : State}
    {source : List Character} (counted : state.WellCounted) :
    Ensures WellCounted (parseLoop whole fuel state source) := by
  cases source with
  | nil =>
    intro pattern read
    obtain ⟨_, rfl⟩ := parseLoop_nil_eq_ok read
    exact counted.body
  | cons character rest =>
    cases fuel with
    | zero => exact .error
    | succ fuel =>
      exact .bind fun found moved =>
        wellCounted_of_parseLoop (counted.step whole character rest found moved)

/-- A pattern that was read has its counts in order. -/
theorem wellCounted_of_parse {text : Text} {pattern : Pattern} (read : parse text = .ok pattern) :
    pattern.WellCounted :=
  wellCounted_of_parseLoop ⟨⟨by simp, by simp⟩, by simp⟩ pattern read

end Aml.Pattern
