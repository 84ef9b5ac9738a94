import Mathlib
import Aml.Proofs.Pattern.Counts
import Aml.Proofs.Text.Decoding

/-!
# Patterns read inside an anchored group

A pattern is tried at a cursor as a group behind an anchor. Its text is then read with an anchor and
an opening in front of it and a parenthesis after it, and nothing but the reading itself says that
this gives the same pattern. It does, whenever both texts can be read (`Pattern.parse_anchored`), so
the group matches what the pattern does (`Pattern.matches_anchored_iff`).
Every reader gives the same result with the parenthesis after its source (`Pattern.Carries`), since
no reader that succeeds stops for want of a character that the parenthesis would be. The exception
is a quotation left open, which takes the parenthesis for itself: the group is then never closed, so
the anchored text is refused (`Pattern.Swallows`). Every step therefore does to a state what it does
to the state inside one more open group (`Pattern.step_within`).
-/
namespace Aml.Pattern

/-! ## Readers before the parenthesis -/

/-- The parenthesis that closes a group. -/
def closing : Character := ⟨')', [41]⟩

/-- What was read, with the parenthesis still to come. -/
def extended {α : Type} (read : α × List Character) : α × List Character :=
  (read.1, read.2 ++ [closing])

/-- One reading succeeds whenever another one does, with its result changed as said. -/
def Carries {α β : Type} (change : α → β) (short : Except PatternError α)
    (long : Except PatternError β) : Prop :=
  ∀ value, short = .ok value → long = .ok (change value)

namespace Carries

variable {α β γ δ : Type} {change : α → β} {later : γ → δ}

/-- Nothing follows from a fault. -/
theorem error {fault : PatternError} {long : Except PatternError β} :
    Carries change (.error fault) long := by
  intro value read
  contradiction

/-- A result is changed. -/
theorem ok {value : α} : Carries change (.ok value) (.ok (change value)) := by
  rintro _ ⟨⟩
  rfl

/-- A reading carries itself over. -/
theorem same {short : Except PatternError α} : Carries id short short :=
  fun _ => id

/-- Readings in a row are carried over one by one. -/
theorem bind {short : Except PatternError α} {long : Except PatternError β}
    {shorts : α → Except PatternError γ} {longs : β → Except PatternError δ}
    (first : Carries change short long)
    (others : ∀ value, short = .ok value → Carries later (shorts value) (longs (change value))) :
    Carries later (short >>= shorts) (long >>= longs) := by
  intro result read
  cases given : short with
  | error fault =>
    rw [given] at read
    contradiction
  | ok value =>
    rw [given] at read
    rw [first value given]
    exact others value given result read

/-- The same branch is taken. -/
theorem ite {condition : Prop} [Decidable condition] {short short' : Except PatternError α}
    {long long' : Except PatternError β} (holds : condition → Carries change short long)
    (fails : ¬condition → Carries change short' long') :
    Carries change (if condition then short else short') (if condition then long else long') := by
  split
  · exact holds ‹_›
  · exact fails ‹_›

end Carries

/-- A character is read before the parenthesis. -/
theorem next_append (character : Character) (rest : List Character) :
    Carries extended (next (character :: rest)) (next (character :: rest ++ [closing])) :=
  .ite (fun _ => .error) fun _ => .ok

/-- The parenthesis is no octal digit. -/
theorem octalDigit?_append (source : List Character) :
    octalDigit? (source ++ [closing]) = (octalDigit? source).map extended := by
  cases source with
  | nil => rfl
  | cons character rest =>
    rw [List.cons_append, octalDigit?, octalDigit?]
    split <;> rfl

/-- Octal digits end before the parenthesis. -/
theorem octalDigits_append (count : Nat) (source : List Character) (value : Nat) :
    octalDigits count (source ++ [closing]) value = extended (octalDigits count source value) := by
  induction count generalizing source value with
  | zero => rfl
  | succ count ih =>
    rw [octalDigits, octalDigits, octalDigit?_append]
    cases octalDigit? source with
    | none => rfl
    | some found => exact ih _ _

/-- Hexadecimal digits in braces are read before the parenthesis. -/
theorem bracedDigits_append {source : List Character} {value count : Nat}
    {found : Nat × List Character} (read : bracedDigits source value count = .ok (.ok found)) :
    bracedDigits (source ++ [closing]) value count = .ok (.ok (extended found)) := by
  induction source generalizing value count with
  | nil => cases read
  | cons character others ih =>
    rw [List.cons_append, bracedDigits]
    rw [bracedDigits] at read
    split at read
    · cases read
    · rename_i sound
      rw [if_neg sound]
      split at read
      · rename_i closes
        rw [if_pos closes]
        split at read
        · cases read
        · rename_i present
          cases read
          rw [if_neg present]
          rfl
      · rename_i opened
        rw [if_neg opened]
        split at read
        · cases read
        · split at read
          · cases read
          · rename_i small
            simp only [small, if_false]
            exact ih read

/-- An escaped character is read before the parenthesis. -/
theorem escape_append (source : List Character) :
    Carries extended (escape source) (escape (source ++ [closing])) := by
  obtain - | ⟨mark, - | ⟨first, others⟩⟩ := source
  · exact .error
  · exact .error
  · refine .bind (next_append first others) ?_
    rintro ⟨letter, rest⟩ _
    dsimp only [extended]
    refine .ite (fun _ => ?_) fun _ => .ite (fun _ => ?_) fun _ => .ite (fun _ => ?_) fun _ => ?_
    · rw [octalDigits_append]
      exact .ok
    · rw [octalDigit?_append, octalDigits_append, Option.isSome_map]
      exact .ite (fun _ => .ok) fun _ => .error
    · cases rest with
      | nil => exact .error
      | cons digit rest =>
        refine .bind (next_append digit rest) ?_
        rintro ⟨high, rest⟩ _
        refine .ite (fun _ => ?_) fun _ => ?_
        · intro value read
          cases braced : bracedDigits rest 0 0 with
          | error fault =>
            rw [braced] at read
            cases read
          | ok found =>
            rw [braced] at read
            cases found with
            | error place => cases read
            | ok found =>
              cases read
              dsimp only [extended]
              rw [bracedDigits_append braced]
              rfl
        · cases rest with
          | nil =>
            cases hexDigit? high <;> exact .error
          | cons digit rest =>
            refine .bind (next_append digit rest) ?_
            rintro ⟨low, rest⟩ _
            dsimp only [extended]
            cases hexDigit? high with
            | none => exact .error
            | some =>
              cases hexDigit? low with
              | none => exact .error
              | some => exact .ok
    · cases namedControl? letter with
      | none => exact .ite (fun _ => .ok) fun _ => .error
      | some codePoint => exact .ok

/-- A class written as a letter is read before the parenthesis, and none across it. -/
theorem letterClass?_append (options : Options) (source : List Character) :
    letterClass? options (source ++ [closing]) = (letterClass? options source).map extended := by
  obtain - | ⟨⟨mark, bytes⟩, - | ⟨⟨letter, spelled⟩, rest⟩⟩ := source
  · rfl
  · by_cases escaped : mark = '\\'
    · subst escaped
      rfl
    · simp [letterClass?, escaped]
  · by_cases escaped : mark = '\\'
    · subst escaped
      simp only [letterClass?, List.cons_append]
      split <;> rfl
    · simp [letterClass?, escaped]

/-- A source is split after its first character or further on. -/
theorem splitAfter?_cons (stop : Char) (character : Character) (rest : List Character) :
    splitAfter? stop (character :: rest) =
      if character.scalar = stop then some ([], rest)
      else (splitAfter? stop rest).map fun (front, after) => (character :: front, after) := by
  by_cases stops : character.scalar = stop
  · simp [splitAfter?, stops]
  · simp only [splitAfter?, List.takeWhile_cons, stops, ne_eq, not_false_eq_true, decide_true,
      if_true, if_false, List.length_cons, List.drop_succ_cons]
    split <;> simp_all

/-- A source is split before the parenthesis or not at all. -/
theorem splitAfter?_append {stop : Char} (other : closing.scalar ≠ stop) (source : List Character) :
    splitAfter? stop (source ++ [closing]) = (splitAfter? stop source).map extended := by
  induction source with
  | nil =>
    rw [List.nil_append, splitAfter?_cons, if_neg other]
    rfl
  | cons character rest ih =>
    rw [List.cons_append, splitAfter?_cons, splitAfter?_cons]
    split
    · rfl
    · rw [ih]
      cases splitAfter? stop rest <;> rfl

/-- The name of a class ends before the parenthesis or not at all. -/
theorem className?_append (source : List Character) (name : List Char) :
    className? (source ++ [closing]) name = (className? source name).map extended := by
  fun_induction className? source name with
  | case1 => rfl
  | case2 first rest name other ih =>
    rw [← ih, List.cons_append, className?]
    intro colon bracket others same after
    cases rest with
    | nil => simp [closing] at after
    | cons second rest =>
      obtain ⟨rfl, rfl⟩ := List.cons.inj after
      exact other colon bracket _ same rfl
  | case3 => rfl

/-- The first two characters of a source have a property. -/
def StartsPair (holds : Char → Char → Prop) : List Character → Prop
  | first :: second :: _ => holds first.scalar second.scalar
  | _ => False

/-- The parenthesis does not complete a pair that it does not belong to. -/
theorem startsPair_append {holds : Char → Char → Prop} (other : ∀ first, ¬holds first ')')
    (source : List Character) :
    StartsPair holds (source ++ [closing]) ↔ StartsPair holds source := by
  obtain - | ⟨first, - | ⟨second, rest⟩⟩ := source
  · exact .rfl
  · exact iff_of_false (other _) not_false
  · exact .rfl

/-- A source that does not start with a property has no class given by one. -/
theorem propertyClass?_eq_none (options : Options) {source : List Character}
    (other : ¬StartsPair (fun mark kind => mark = '\\' ∧ (kind = 'p' ∨ kind = 'P')) source) :
    propertyClass? options source = .ok none := by
  obtain - | ⟨⟨mark, bytes⟩, - | ⟨⟨kind, spelled⟩, rest⟩⟩ := source
  · rfl
  · simp only [propertyClass?]
    rfl
  · by_cases escaped : mark = '\\'
    · obtain ⟨small, capital⟩ := not_or.mp (not_and.mp other escaped)
      dsimp only at small capital
      simp only [propertyClass?, List.cons.injEq, Character.mk.injEq, small, capital, false_and,
        and_false, imp_self, implies_true]
      rfl
    · simp only [propertyClass?, List.cons.injEq, Character.mk.injEq, escaped, false_and, imp_self,
        implies_true]
      rfl

/-- A class is found by its name or not at all. -/
theorem found_append {options : Options} {negated : Bool} {found : Option CharSet}
    {rest : List Character} {fault other : PatternError} :
    Carries (Option.map extended)
      (match found with
        | some set => .ok (some (classSet options negated set, rest))
        | none => .error fault)
      (match found with
        | some set => .ok (some (classSet options negated set, rest ++ [closing]))
        | none => .error other) := by
  cases found with
  | none => exact .error
  | some set => exact .ok

/-- A class given by a property is read before the parenthesis. -/
theorem propertyClass?_append (options : Options) (source : List Character) :
    Carries (Option.map extended) (propertyClass? options source)
      (propertyClass? options (source ++ [closing])) := by
  by_cases property : StartsPair (fun mark kind => mark = '\\' ∧ (kind = 'p' ∨ kind = 'P')) source
  · obtain - | ⟨⟨_, bytes⟩, - | ⟨⟨_, spelled⟩, - | ⟨first, rest⟩⟩⟩ := source
    · contradiction
    · contradiction
    · obtain ⟨rfl, rfl | rfl⟩ := property <;> exact .error
    · -- Both letters are read alike, the second for the complement.
      obtain ⟨rfl, rfl | rfl⟩ := property
      all_goals
        refine Carries.bind (next_append first rest) ?_
        rintro ⟨letter, rest⟩ _
        dsimp only [extended]
        refine .ite (fun _ => ?_) fun _ => found_append
        rw [splitAfter?_append (by decide)]
        cases splitAfter? '}' rest with
        | none =>
          intro value read
          obtain ⟨_, _, fault⟩ := ok_of_bind read
          cases fault
        | some found => exact .bind .same fun _ _ => found_append
  · rw [propertyClass?_eq_none options property, propertyClass?_eq_none]
    · exact .ok
    · rwa [startsPair_append (by simp)]

/-- A source that does not start with a named class has none. -/
theorem namedClass?_eq_none (options : Options) {source : List Character}
    (other : ¬StartsPair (fun mark colon => mark = '[' ∧ colon = ':') source) :
    namedClass? options source = .ok none := by
  obtain - | ⟨⟨mark, bytes⟩, - | ⟨⟨colon, spelled⟩, rest⟩⟩ := source
  · rfl
  · simp [namedClass?]
  · by_cases opens : mark = '['
    · have plain := not_and.mp other opens
      dsimp only at plain
      simp [namedClass?, plain]
    · simp [namedClass?, opens]

/-- A named class is read before the parenthesis. -/
theorem namedClass?_append (options : Options) (source : List Character) :
    Carries (Option.map extended) (namedClass? options source)
      (namedClass? options (source ++ [closing])) := by
  by_cases named : StartsPair (fun mark colon => mark = '[' ∧ colon = ':') source
  · obtain - | ⟨⟨_, bytes⟩, - | ⟨⟨_, spelled⟩, inner⟩⟩ := source
    · contradiction
    · contradiction
    · obtain ⟨rfl, rfl⟩ := named
      simp only [namedClass?, List.cons_append, className?_append]
      cases className? inner [] with
      | none => exact .ok
      | some found => exact found_append
  · rw [namedClass?_eq_none options named, namedClass?_eq_none]
    · exact .ok
    · rwa [startsPair_append (by simp)]

/-- The end of a range is read before the parenthesis. -/
theorem classEnd_append (whole more : List Character) (source : List Character) :
    Carries extended (classEnd whole source) (classEnd more (source ++ [closing])) := by
  obtain - | ⟨⟨first, bytes⟩, rest⟩ := source
  · exact .error
  · by_cases escaped : first = '\\'
    · subst escaped
      exact escape_append _
    · rw [List.cons_append, classEnd, classEnd]
      · exact .bind (next_append _ _) fun _ _ => .ok
      · simp
      · simp [escaped]
      · simp
      · simp [escaped]

/-- A source that does not go on with a dash and another character has no upper end. -/
theorem classRange_single (options : Options) {whole source rest : List Character} {low : Nat}
    (lower : classEnd whole source = .ok (low, rest))
    (single : ¬StartsPair (fun dash _ => dash = '-') rest) :
    classRange options whole source = .ok (classSet options false (.single low), rest) := by
  rw [classRange, lower]
  dsimp only [bind, Except.bind]
  split
  · exact absurd rfl single
  · rfl

/-- A range is read before the parenthesis, unless a dash is left alone in front of it. -/
theorem classRange_append (options : Options) (whole more : List Character)
    {source rest : List Character} {set : CharSet}
    (read : classRange options whole source = .ok (set, rest))
    (other : ∀ dash, rest = [dash] → dash.scalar ≠ '-') :
    classRange options more (source ++ [closing]) = .ok (extended (set, rest)) := by
  obtain ⟨⟨low, after⟩, lower, later⟩ := ok_of_bind read
  have still := classEnd_append whole more source _ lower
  by_cases ranged : StartsPair (fun dash _ => dash = '-') after
  · obtain - | ⟨⟨_, bytes⟩, - | ⟨stop, after⟩⟩ := after
    · contradiction
    · contradiction
    · obtain rfl := ranged
      rw [classRange, still]
      refine (?_ : Carries extended _ _) _ later
      refine .ite (fun _ => .ok) fun _ => ?_
      exact .bind (classEnd_append whole more (stop :: after)) fun _ _ =>
        .ite (fun _ => .error) fun _ => .ok
  · obtain ⟨rfl, rfl⟩ := Prod.mk.inj (Except.ok.inj
      (read.symm.trans (classRange_single options lower ranged)))
    refine classRange_single options still ?_
    obtain - | ⟨dash, - | ⟨stop, after⟩⟩ := rest
    · exact not_false
    · exact other dash rfl
    · exact ranged

/-- A dash alone does not end a bracketed class. -/
theorem classItems_dash (options : Options) (whole : List Character) (fuel : Nat) {dash : Character}
    (items : List CharSet) (found : List CharSet × List Character) (plain : dash.scalar = '-') :
    classItems options whole fuel false [dash] items ≠ .ok found := by
  obtain ⟨_, bytes⟩ := dash
  obtain rfl := plain
  obtain - | - | fuel := fuel
  · exact nofun
  · exact nofun
  · exact nofun

/-- A bracketed class is read before the parenthesis, also with more items allowed. -/
theorem classItems_append (options : Options) (whole more : List Character) {fuel limit : Nat}
    (enough : fuel ≤ limit) (first : Bool) (source : List Character) (items : List CharSet) :
    Carries extended (classItems options whole fuel first source items)
      (classItems options more limit first (source ++ [closing]) items) := by
  induction fuel generalizing limit first source items with
  | zero => exact .error
  | succ fuel ih =>
    obtain ⟨limit, rfl⟩ := Nat.exists_eq_add_of_le' (Nat.le_trans (Nat.le_add_left 1 fuel) enough)
    have fewer : fuel ≤ limit := Nat.le_of_succ_le_succ enough
    by_cases ends : ∃ bytes rest, source = ⟨']', bytes⟩ :: rest ∧ first = false
    · obtain ⟨bytes, rest, rfl, rfl⟩ := ends
      exact .ok
    · rw [classItems, classItems]
      · refine .bind (namedClass?_append options source) ?_
        rintro (_ | ⟨set, rest⟩) _
        · refine .bind (propertyClass?_append options source) ?_
          rintro (_ | ⟨set, rest⟩) _
          · dsimp only [Option.map_none]
            rw [letterClass?_append]
            cases letterClass? options source with
            | none =>
              intro result read
              obtain ⟨⟨set, rest⟩, ranged, later⟩ := ok_of_bind read
              have other (dash : Character) (alone : rest = [dash]) : dash.scalar ≠ '-' := by
                rintro plain
                subst alone
                exact classItems_dash options whole fuel _ _ plain later
              rw [Option.map_none, classRange_append options whole more ranged other]
              exact ih fewer false rest _ result later
            | some found => exact ih fewer false _ _
          · exact ih fewer false rest _
        · exact ih fewer false rest _
      · rintro bytes rest whole rfl
        cases source with
        | nil => cases whole
        | cons first others =>
          obtain ⟨rfl, rfl⟩ := List.cons.inj whole
          exact ends ⟨bytes, others, rfl, rfl⟩
      · rintro bytes rest rfl rfl
        exact ends ⟨bytes, rest, rfl, rfl⟩

/-- A class in brackets is read before the parenthesis. -/
theorem bracketed_append (options : Options) (opening : Character) (source : List Character) :
    Carries extended (bracketed options (opening :: source))
      (bracketed options (opening :: source ++ [closing])) := by
  obtain - | ⟨⟨first, bytes⟩, rest⟩ := source
  · exact .error
  · by_cases negated : first = '^'
    · subst negated
      refine Carries.bind (classItems_append options _ _ (by simp) true rest []) ?_
      exact fun _ _ => .ok
    · have plain (inner : List Character) : bracketed options (opening :: ⟨first, bytes⟩ :: inner) =
          (do
            let found ← classItems options (opening :: ⟨first, bytes⟩ :: inner)
              (inner.length + 2) true (⟨first, bytes⟩ :: inner) []
            return (CharSet.unions found.1, found.2)) := by
        simp [bracketed, negated]
      rw [List.cons_append, List.cons_append, plain, plain]
      refine .bind (classItems_append options _ _ (by simp) true (_ :: rest) []) ?_
      exact fun _ _ => .ok

/-- A count ends before the parenthesis. -/
theorem count?_append (source : List Character) :
    count? (source ++ [closing]) = (count? source).map extended := by
  have digits : ((source ++ [closing]).map (·.scalar)).takeWhile Char.isDigit =
      (source.map (·.scalar)).takeWhile Char.isDigit := by
    rw [List.map_append, List.takeWhile_append]
    split
    · rename_i all
      rw [List.map_singleton, List.takeWhile_cons_of_neg (by decide), List.append_nil]
      exact ((List.takeWhile_prefix _).eq_of_length all).symm
    · rfl
  have within := (@List.takeWhile_prefix _ (source.map (·.scalar)) Char.isDigit).length_le
  rw [List.length_map] at within
  unfold count?
  rw [digits]
  dsimp only
  rw [List.drop_append_of_le_length within]
  split <;> rfl

/-- The counts in braces end before the parenthesis. -/
theorem counts?_append (opening : Character) (source : List Character) :
    counts? (opening :: source ++ [closing]) =
      (counts? (opening :: source)).map
        fun (least, most, rest) => (least, most, rest ++ [closing]) := by
  simp only [counts?, List.cons_append, List.drop_succ_cons, List.drop_zero, count?_append]
  cases count? source with
  | none => rfl
  | some found =>
    obtain ⟨least, - | ⟨⟨first, bytes⟩, rest⟩⟩ := found
    · rfl
    · by_cases exact : first = '}'
      · subst exact
        rfl
      · by_cases range : first = ','
        · subst range
          obtain - | ⟨⟨second, spelled⟩, others⟩ := rest
          · rfl
          · by_cases unbounded : second = '}'
            · subst unbounded
              rfl
            · have later := count?_append (⟨second, spelled⟩ :: others)
              rw [List.cons_append] at later
              simp only [extended, Option.map_some, Option.bind_eq_bind, Option.bind_some,
                List.cons_append, List.cons.injEq, Character.mk.injEq, unbounded, false_and,
                imp_self, implies_true, later, Option.map_bind, Function.comp_apply]
              cases count? (⟨second, spelled⟩ :: others) with
              | none => rfl
              | some found =>
                obtain ⟨most, - | ⟨⟨third, letters⟩, rest⟩⟩ := found
                · rfl
                · by_cases closes : third = '}'
                  · subst closes
                    rfl
                  · simp [extended, closes]
        · simp [extended, exact, range]

/-! ## Steps inside a group -/

namespace State

/-- A state inside one more open group, with the parenthesis still to come. -/
def within (outer : Level) (state : State) : State :=
  { state with
    enclosing := state.enclosing ++ [outer]
    lastRepeat := state.lastRepeat.map (· ++ [closing]) }

end State

/-- What a step gave, inside one more open group. -/
def enclosed (outer : Level) (found : State × List Character) : State × List Character :=
  (found.1.within outer, found.2 ++ [closing])

variable {outer : Level}

/-- Literals are added inside one more group. -/
theorem literals_within (state : State) (characters : List Character) :
    Carries (State.within outer) (state.literals characters)
      ((state.within outer).literals characters) := by
  induction characters generalizing state with
  | nil => exact .ok
  | cons character rest ih => exact .ite (fun _ => .error) fun _ => ih _

/-- A group is closed inside one more group. -/
theorem closeGroup_within (whole more : Text) (state : State) :
    Carries (State.within outer) (state.closeGroup whole)
      ((state.within outer).closeGroup more) := by
  obtain ⟨options, level, - | ⟨above, enclosing⟩, lastRepeat⟩ := state
  · exact .error
  · exact .ite (fun _ => .error) fun _ => .ok

/-- The parenthesis is no mark of a repetition. -/
theorem lazyMark_append (lazy : Bool) (source : List Character) :
    lazyMark lazy (source ++ [closing]) = extended (lazyMark lazy source) := by
  obtain - | ⟨⟨first, bytes⟩, others⟩ := source
  · rfl
  · by_cases marked : first = '?'
    · subst marked
      rfl
    · simp [lazyMark, marked, extended]

/-- The latest item is repeated inside one more group. -/
theorem repetition_within (whole more : Text) (state : State) (source rest : List Character)
    (apply : Pattern → Bool → Pattern) :
    Carries (enclosed outer) (state.repetition whole source rest apply)
      ((state.within outer).repetition more (source ++ [closing]) (rest ++ [closing]) apply) := by
  intro found read
  obtain ⟨item, items, fresh, latest, low, fits, rfl⟩ := repetition_eq_ok_iff.mp read
  refine repetition_eq_ok_iff.mpr ⟨item, items, ?_, latest, ?_⟩
  · simp [State.within, fresh]
  · simp only [State.within, lazyMark_append]
    exact ⟨low, fits, rfl⟩

/-- Options are switched inside one more group. -/
theorem optionLetters_within (state : State) {options : Options} {negated seen : Bool}
    {source : List Character} {found : State × List Character}
    (read : optionLetters state options negated seen source = .ok (.ok found)) :
    optionLetters (state.within outer) options negated seen (source ++ [closing]) =
      .ok (.ok (enclosed outer found)) := by
  induction source generalizing options negated seen with
  | nil => cases read
  | cons character rest ih =>
    rw [List.cons_append]
    rw [optionLetters] at read ⊢
    split at read
    · cases read
    · rename_i sound
      rw [if_neg sound]
      split at read
      · exact ih read
      · exact ih read
      · exact ih read
      · exact ih read
      · split at read
        · cases read
        · rename_i once
          rw [if_neg once]
          exact ih read
      · split at read
        · cases read
        · rename_i seen
          cases read
          rw [if_neg seen]
          rfl
      · split at read
        · cases read
        · rename_i seen
          cases read
          rw [if_neg seen]
          rfl
      · cases read

/-- A quotation ends before the parenthesis or takes all of the source. -/
theorem quotedLiterals_append (source quoted : List Character) :
    quotedLiterals (source ++ [closing]) quoted = extended (quotedLiterals source quoted) ∨
      (quotedLiterals (source ++ [closing]) quoted).2 = [] := by
  fun_induction quotedLiterals source quoted with
  | case1 => exact .inl rfl
  | case2 first rest quoted other ih =>
    rw [List.cons_append, quotedLiterals]
    · exact ih
    · intro mark letter others same whole
      cases rest with
      | nil => cases whole
      | cons second rest =>
        obtain ⟨rfl, rfl⟩ := List.cons.inj whole
        exact other mark letter rest same rfl
  | case3 => exact .inr rfl

/-- A named group is opened inside one more group. -/
theorem groupName_within (state : State) {source more inner : List Character} :
    Carries (enclosed outer) (groupName state source inner)
      (groupName (state.within outer) more (inner ++ [closing])) := by
  unfold groupName
  rw [splitAfter?_append (by decide)]
  cases splitAfter? '>' inner with
  | none =>
    intro found read
    obtain ⟨_, _, fault⟩ := ok_of_bind read
    cases fault
  | some split =>
    exact .bind .same fun _ _ => .ite (fun _ => .ok) fun _ => .error

/-- A special group is opened inside one more group. -/
theorem specialGroup_within (state : State) (source : List Character) :
    Carries (enclosed outer) (specialGroup state source)
      (specialGroup (state.within outer) (source ++ [closing])) := by
  intro found read
  unfold specialGroup at read
  split at read
  · exact groupName_within state found read
  · exact groupName_within state found read
  · obtain ⟨letters, options, result⟩ := ok_of_bind read
    cases letters with
    | error place => cases result
    | ok letters =>
      cases result
      obtain - | ⟨opening, - | ⟨mark, - | ⟨first, rest⟩⟩⟩ := source
      · cases options
      · cases options
      · cases options
      · rw [List.cons_append, List.cons_append, List.cons_append, specialGroup]
        · exact congrArg (· >>= _) (@optionLetters_within outer _ _ _ _ _ _ options)
        · -- Neither letter of a name is an option.
          intro _ _ bytes _ _ _ same
          simp only [List.cons.injEq] at same
          obtain ⟨_, _, rfl, _⟩ := same
          cases options
        · intro _ _ bytes _ _ same
          simp only [List.cons.injEq] at same
          obtain ⟨_, _, rfl, _⟩ := same
          cases options

/-- Literals leave the groups around them as they are. -/
theorem enclosing_literals {state next : State} {characters : List Character}
    (read : state.literals characters = .ok next) : next.enclosing = state.enclosing := by
  induction characters generalizing state with
  | nil =>
    cases read
    rfl
  | cons character rest ih =>
    rw [State.literals] at read
    split at read
    · contradiction
    · exact (ih read).trans rfl

/-- A step that succeeds leaves a group open at the end of the source. -/
def Swallows (long : Except PatternError (State × List Character)) : Prop :=
  ∀ found, long = .ok found → found.2 = [] ∧ found.1.enclosing ≠ []

/-- What follows a backslash is read inside one more group, or is a quotation left open. -/
theorem backslash_within (state : State) (source : List Character) :
    Carries (enclosed outer) (backslash state source)
      (backslash (state.within outer) (source ++ [closing])) ∨
      Swallows (backslash (state.within outer) (source ++ [closing])) := by
  by_cases short : ∃ found, backslash state source = .ok found
  · obtain ⟨_, read⟩ := short
    obtain ⟨mark, ⟨letter, bytes⟩, rest, rfl⟩ := exists_of_backslash read
    unfold backslash
    dsimp only [List.cons_append]
    split
    · exact .inl .ok
    · exact .inl .ok
    · exact .inl .ok
    · exact .inl .error
    · obtain same | swallowed := quotedLiterals_append rest []
      · left
        rw [same]
        exact .bind (literals_within _ _) fun _ _ => .ok
      · right
        intro found read
        obtain ⟨next, literals, done⟩ := ok_of_bind read
        cases done
        refine ⟨swallowed, ?_⟩
        rw [enclosing_literals literals]
        exact List.concat_ne_nil _ _
    · exact .inl .ok
    · left
      refine .bind (propertyClass?_append _ (_ :: _ :: rest)) ?_
      rintro (_ | found) _
      · have lettered := letterClass?_append state.options (mark :: ⟨letter, bytes⟩ :: rest)
        dsimp only [Option.map_none, State.within]
        rw [List.cons_append, List.cons_append] at lettered
        rw [lettered]
        cases letterClass? state.options (mark :: ⟨letter, bytes⟩ :: rest) with
        | none => exact .bind (escape_append (_ :: _ :: rest)) fun _ _ => .ok
        | some found => exact .ok
      · exact .ok
  · exact .inl fun found read => absurd ⟨found, read⟩ short

/-- One step does the same inside one more group, or reads a quotation left open. -/
theorem step_within (whole more : Text) (state : State) (character : Character)
    (rest : List Character) :
    Carries (enclosed outer) (step whole state character rest)
      (step more (state.within outer) character (rest ++ [closing])) ∨
      Swallows (step more (state.within outer) character (rest ++ [closing])) := by
  obtain ⟨scalar, bytes⟩ := character
  unfold step
  dsimp only
  split
  · left
    obtain - | ⟨⟨first, spelled⟩, inner⟩ := rest
    · exact .ok
    · by_cases special : first = '?'
      · subst special
        exact specialGroup_within _ (_ :: _ :: inner)
      · simp only [List.cons_append]
        split
        · rename_i same
          cases same
          contradiction
        · split
          · rename_i same
            cases same
            contradiction
          · exact .ok
  · exact .inl .ok
  · exact .inl (.bind (closeGroup_within _ _ _) fun _ _ => .ok)
  · exact .inl .ok
  · exact .inl .ok
  · exact .inl .ok
  · exact .inl (.bind (bracketed_append _ _ rest) fun _ _ => .ok)
  · exact .inl (repetition_within _ _ _ (_ :: rest) rest _)
  · exact .inl (repetition_within _ _ _ (_ :: rest) rest _)
  · exact .inl (repetition_within _ _ _ (_ :: rest) rest _)
  · left
    rw [← List.cons_append, counts?_append]
    cases counts? (_ :: rest) with
    | none => exact .ok
    | some found =>
      exact .ite (fun _ => .error) fun _ => repetition_within _ _ _ (_ :: rest) _ _
  · exact backslash_within _ (_ :: rest)
  · exact .inl (.bind (next_append _ rest) fun _ _ => .ok)

/-- The pattern as a whole, after its anchor. -/
def anchoredLevel : Level := { items := [.anchor .textStart] }

/-- Closing the group of a pattern ends the anchored pattern. -/
theorem parseLoop_close {more : Text} {limit : Nat} {state : State} {anchored : Pattern}
    (outermost : state.enclosing = [])
    (closed : parseLoop more (limit + 1) (state.within anchoredLevel) [closing] = .ok anchored) :
    anchored = .sequence (.anchor .textStart)
      (if state.level.marks then .group state.body else state.body) := by
  obtain ⟨⟨next, after⟩, moved, closed⟩ := ok_of_bind closed
  obtain ⟨left, closes, rest⟩ := ok_of_bind moved
  cases rest
  obtain ⟨level, enclosing, around, rfl⟩ := exists_of_closeGroup closes
  simp only [State.within, outermost, List.nil_append, List.cons.injEq] at around
  obtain ⟨rfl, rfl⟩ := around
  exact (parseLoop_nil_eq_ok closed).2

/-- A source read to its end and then closed gives its pattern behind the anchor. -/
theorem parseLoop_within {whole more : Text} {fuel limit : Nat} (enough : fuel ≤ limit)
    {state : State} {source : List Character} {pattern anchored : Pattern}
    (read : parseLoop whole fuel state source = .ok pattern)
    (closed : parseLoop more (limit + 1) (state.within anchoredLevel) (source ++ [closing]) =
      .ok anchored) :
    ∃ inner, (inner = pattern ∨ inner = .group pattern) ∧
      anchored = .sequence (.anchor .textStart) inner := by
  cases source with
  | nil =>
    obtain ⟨outermost, rfl⟩ := parseLoop_nil_eq_ok read
    refine ⟨_, ?_, parseLoop_close outermost closed⟩
    split
    · exact .inr rfl
    · exact .inl rfl
  | cons character rest =>
    cases fuel with
    | zero => contradiction
    | succ fuel =>
      obtain ⟨limit, rfl⟩ := Nat.exists_eq_add_of_le' (Nat.le_trans (Nat.le_add_left 1 fuel) enough)
      obtain ⟨found, stepped, read⟩ := ok_of_bind read
      obtain ⟨next, moved, closed⟩ := ok_of_bind closed
      obtain carries | swallows := step_within whole more state character rest
      · cases (carries _ stepped).symm.trans moved
        exact parseLoop_within (Nat.le_of_succ_le_succ enough) read closed
      · obtain ⟨ended, opened⟩ := swallows _ moved
        dsimp only at closed
        rw [ended] at closed
        exact absurd (parseLoop_nil_eq_ok closed).1 opened

/-- The characters of an anchored group. -/
theorem characters_anchored (text : Text) :
    Text.characters ("^(?:" ++ text ++ ")") = ⟨'^', [94]⟩ :: ⟨'(', [40]⟩ :: ⟨'?', [63]⟩ ::
      ⟨':', [58]⟩ :: (text.characters ++ [closing]) := by
  have closing : Text.Separate text [41] := .inr fun byte first => by
    cases first
    rfl
  change Text.characters (94 :: 40 :: 63 :: 58 :: (text ++ [41])) = _
  rw [Text.characters_cons_ascii (by decide), Text.characters_cons_ascii (by decide),
    Text.characters_cons_ascii (by decide), Text.characters_cons_ascii (by decide),
    Text.characters_append closing]
  rfl

/-- An anchored group that can be read is the anchor and then the pattern itself. -/
theorem parse_anchored {text : Text} {pattern anchored : Pattern}
    (read : parse text = .ok pattern) (closed : parse ("^(?:" ++ text ++ ")") = .ok anchored) :
    ∃ inner, (inner = pattern ∨ inner = .group pattern) ∧
      anchored = .sequence (.anchor .textStart) inner := by
  have longer : text.characters.length ≤ (text.characters ++ [closing]).length + 1 := by simp; omega
  unfold parse at closed
  rw [characters_anchored] at closed
  exact parseLoop_within longer read closed

/-- An anchored group that can be read matches at the start what the pattern does. -/
theorem matches_anchored_iff {text : Text} {pattern anchored : Pattern}
    (read : parse text = .ok pattern) (closed : parse ("^(?:" ++ text ++ ")") = .ok anchored)
    {taken rest : List Character} :
    anchored.Matches none taken rest ↔ pattern.Matches none taken rest := by
  obtain ⟨inner, same, rfl⟩ := parse_anchored read closed
  have bare : inner.Matches none taken rest ↔ pattern.Matches none taken rest := by
    obtain rfl | rfl := same
    · exact .rfl
    · exact Matches.group_iff
  rw [Matches.sequence_iff, ← bare]
  constructor
  · rintro ⟨_, right, rfl, ⟨⟩, later⟩
    exact later
  · intro matched
    exact ⟨[], taken, rfl, .anchor rfl, matched⟩

end Aml.Pattern
