import Mathlib
import Aml.Proofs.Rule.Lexis
import Aml.Scan.Piece

/-!
# Trying the rules of the language

The rules of the language pass every check, and `Registry.language` is the registry they make:
the content rules with their programs, then the operators, two characters before one. What the
first matching rule is can be said without the order of trial: `Lexis.Reads` lists, class by
class, which rule takes how many characters, and `Lexis.choose_eq_some_iff` identifies it with
the choice of the registry. Only the numerals and the minus sign overlap; all other classes
differ in their first character.
-/
namespace Aml

namespace Operator

/-- The operators in the order in which they are tried. -/
def trialOrder : List Operator :=
  [.addAssign, .subAssign, .mulAssign, .divAssign, .modAssign, .notEqual, .equal, .greaterEqual,
   .lessEqual, .exp, .land, .lor, .greater, .less, .assign, .add, .sub, .mul, .div, .mod,
   .leftRound, .rightRound, .leftBracket, .rightBracket, .leftCurly, .rightCurly, .comma]

/-- The characters of an operator. -/
def scalars (operator : Operator) : List Char :=
  operator.spelling.toList

/-- The rule of an operator. -/
def rule (operator : Operator) : Rule :=
  Rule.ofOperator operator (all.idxOf operator)

/-- The rule of an operator with its matcher. -/
def checked (operator : Operator) : CheckedRule :=
  ⟨operator.rule, .literal operator.scalars⟩

/-- Every operator is tried. -/
theorem mem_trialOrder (operator : Operator) : operator ∈ trialOrder := by
  cases operator <;> decide

end Operator

/-- The content rules of the language with their matchers. -/
def Registry.contents : List CheckedRule :=
  [⟨Rule.stringLiteral, .regular Rule.stringProgram⟩,
   ⟨Rule.realNumeral, .regular Rule.realProgram⟩,
   ⟨Rule.integerNumeral, .regular Rule.integerProgram⟩,
   ⟨Rule.identifier, .regular Rule.nameProgram⟩,
   ⟨Rule.comment, .regular Rule.commentProgram⟩,
   ⟨Rule.newlineRun, .regular Rule.newlineProgram⟩,
   ⟨Rule.blankRun, .regular Rule.blankProgram⟩]

/-- The registry of the language. -/
def Registry.language : Registry where
  rules := contents ++ Operator.trialOrder.map Operator.checked
  distinct := by decide

/-- The rules of the language are accepted and make the registry of the language. -/
theorem Registry.ofRules_defaults : Registry.ofRules Rule.defaults = .ok Registry.language := by
  have sound : Rule.checkAll Rule.defaults [] = .ok () := by rfl
  have matched : Rule.withMatchers 0 (Rule.inOrder Rule.defaults) = .ok language.rules := by rfl
  exact ofRules_eq_ok_iff.mpr ⟨List.cons_ne_nil _ _, sound, matched⟩

namespace Lexis

/-- The longest operator in front. -/
def operator? (characters : List Character) : Option Operator :=
  Operator.trialOrder.find? fun operator => startsWith operator.scalars characters

/-- A regular rule is chosen when its program matches, and otherwise left to the rules after
it. -/
theorem choose_regular (rule : Rule) (program : Program) (rest : List CheckedRule)
    (characters : List Character) :
    Registry.choose (⟨rule, .regular program⟩ :: rest) characters =
      ((program.match? characters).map (rule, ·)).or (Registry.choose rest characters) := by
  rw [Registry.choose, Matcher.attempt]
  cases program.match? characters <;> rfl

/-- Operators are chosen in the order in which they stand. -/
theorem choose_operators (operators : List Operator) (characters : List Character) :
    Registry.choose (operators.map Operator.checked) characters =
      (operators.find? fun operator => startsWith operator.scalars characters).map
        fun operator => (operator.rule, operator.scalars.length) := by
  induction operators with
  | nil => rfl
  | cons operator rest ih =>
    rw [List.map_cons, Registry.choose, Operator.checked, Matcher.attempt, List.find?_cons]
    cases startsWith operator.scalars characters with
    | true => rfl
    | false => exact ih

/-- The choice of the registry, reader by reader. -/
theorem choose_language (characters : List Character) :
    Registry.choose Registry.language.rules characters =
      ((string? characters).map (Rule.stringLiteral, ·)).or
      (((real? characters).map (Rule.realNumeral, ·)).or
      (((integer? characters).map (Rule.integerNumeral, ·)).or
      (((name? characters).map (Rule.identifier, ·)).or
      (((comment? characters).map (Rule.comment, ·)).or
      (((newlines? characters).map (Rule.newlineRun, ·)).or
      (((blanks? characters).map (Rule.blankRun, ·)).or
      ((operator? characters).map fun operator =>
        (operator.rule, operator.scalars.length)))))))) := by
  unfold Registry.language Registry.contents
  simp only [List.cons_append, List.nil_append, choose_regular, choose_operators,
    stringProgram_match?, realProgram_match?, integerProgram_match?, nameProgram_match?,
    commentProgram_match?, newlineProgram_match?, blankProgram_match?, operator?]

/-! ## The first character of a class -/

section First

variable {character : Character} {rest : List Character} {length : Nat}

/-- A class with a first character starts with it. -/
theorem headed?_first {first later : Character → Bool}
    (read : headed? first later (character :: rest) = some length) : first character := by
  rw [headed?] at read
  split at read
  · assumption
  · contradiction

/-- A string starts with a quote. -/
theorem string?_first (read : string? (character :: rest) = some length) :
    character.scalar.toNat = 34 := by
  rw [string?] at read
  split at read
  · exact (Character.scalar_eq_iff _).mp ‹_›
  · contradiction

/-- A signed numeral starts with a minus sign or as without it. -/
theorem signed?_first {unsigned? : List Character → Option Nat}
    (read : signed? unsigned? (character :: rest) = some length) :
    character.scalar.toNat = 45 ∧ (∃ found, unsigned? rest = some found ∧ length = found + 1) ∨
      character.scalar.toNat ≠ 45 ∧ unsigned? (character :: rest) = some length := by
  rw [signed?] at read
  split at read
  · obtain ⟨found, inner, rfl⟩ := Option.map_eq_some_iff.mp read
    exact .inl ⟨(Character.scalar_eq_iff _).mp ‹_›, found, inner, rfl⟩
  · exact .inr ⟨mt (Character.scalar_eq_iff '-').mpr ‹_›, read⟩

/-- A numeral without a point starts with a minus sign or a digit. -/
theorem integer?_first (read : integer? (character :: rest) = some length) :
    character.scalar.toNat = 45 ∨
      48 ≤ character.scalar.toNat ∧ character.scalar.toNat ≤ 57 := by
  obtain ⟨minus, _⟩ | ⟨_, unsigned⟩ := signed?_first read
  · exact .inl minus
  · exact .inr (Character.isDigit_iff.mp (headed?_first unsigned))

/-- A numeral with a point has digits before it. -/
theorem digits?_of_unsignedReal? {characters : List Character}
    (read : unsignedReal? characters = some length) :
    ∃ whole, digits? characters = some whole ∧ whole < length := by
  obtain ⟨whole, digits, mapped⟩ := Option.bind_eq_some_iff.mp read
  obtain ⟨part, fraction, rfl⟩ := Option.map_eq_some_iff.mp mapped
  refine ⟨whole, digits, ?_⟩
  have positive : 0 < part := by
    unfold fraction? at fraction
    split at fraction
    · contradiction
    · split at fraction
      · obtain ⟨found, _, rfl⟩ := Option.map_eq_some_iff.mp fraction
        exact Nat.succ_pos found
      · contradiction
  omega

/-- A numeral with a point goes beyond the one without it. -/
theorem integer?_of_real? {characters : List Character} (read : real? characters = some length) :
    ∃ whole, integer? characters = some whole ∧ whole < length := by
  cases characters with
  | nil => contradiction
  | cons character rest =>
    rw [real?, signed?] at read
    rw [integer?, signed?]
    split at read
    · rename_i minus
      obtain ⟨found, inner, rfl⟩ := Option.map_eq_some_iff.mp read
      obtain ⟨whole, digits, shorter⟩ := digits?_of_unsignedReal? inner
      exact ⟨whole + 1, by rw [if_pos minus, digits]; rfl, by omega⟩
    · rename_i plain
      obtain ⟨whole, digits, shorter⟩ := digits?_of_unsignedReal? read
      exact ⟨whole, by rw [if_neg plain, digits], shorter⟩

/-- A numeral with a point starts with a minus sign or a digit. -/
theorem real?_first (read : real? (character :: rest) = some length) :
    character.scalar.toNat = 45 ∨
      48 ≤ character.scalar.toNat ∧ character.scalar.toNat ≤ 57 := by
  obtain ⟨_, whole, _⟩ := integer?_of_real? read
  exact integer?_first whole

/-- Only a quote starts a string. -/
theorem string?_eq_none (character : Character) (rest : List Character)
    (other : character.scalar.toNat ≠ 34) :
    string? (character :: rest) = none :=
  Option.eq_none_iff_forall_ne_some.mpr fun _ read => other (string?_first read)

/-- Only a minus sign or a digit starts a numeral without a point. -/
theorem integer?_eq_none (character : Character) (rest : List Character)
    (other : ¬(character.scalar.toNat = 45 ∨
      48 ≤ character.scalar.toNat ∧ character.scalar.toNat ≤ 57)) :
    integer? (character :: rest) = none :=
  Option.eq_none_iff_forall_ne_some.mpr fun _ read => other (integer?_first read)

/-- Without a numeral there is none with a point. -/
theorem real?_eq_none {characters : List Character} (unsigned : integer? characters = none) :
    real? characters = none := by
  refine Option.eq_none_iff_forall_ne_some.mpr fun _ read => ?_
  obtain ⟨_, whole, _⟩ := integer?_of_real? read
  rw [unsigned] at whole
  contradiction

/-- Only a letter starts a name. -/
theorem name?_eq_none (character : Character) (rest : List Character)
    (other : ¬(97 ≤ character.scalar.toNat ∧ character.scalar.toNat ≤ 122 ∨
      65 ≤ character.scalar.toNat ∧ character.scalar.toNat ≤ 90)) :
    name? (character :: rest) = none :=
  Option.eq_none_iff_forall_ne_some.mpr fun _ read =>
    other (Character.isLetter_iff.mp (headed?_first read))

/-- A comment starts with a number sign. -/
theorem comment?_first (read : comment? (character :: rest) = some length) :
    character.scalar.toNat = 35 :=
  (Character.scalar_eq_iff '#').mp (of_decide_eq_true (headed?_first read))

/-- Only a number sign starts a comment. -/
theorem comment?_eq_none (character : Character) (rest : List Character)
    (other : character.scalar.toNat ≠ 35) : comment? (character :: rest) = none :=
  Option.eq_none_iff_forall_ne_some.mpr fun _ read => other (comment?_first read)

/-- Only a newline starts a run of newlines. -/
theorem newlines?_eq_none (character : Character) (rest : List Character)
    (other : character.scalar.toNat ≠ 10) : newlines? (character :: rest) = none :=
  Option.eq_none_iff_forall_ne_some.mpr fun _ read =>
    other (Character.isNewline_iff.mp (headed?_first read))

/-- Only a space or a tab starts a run of blanks. -/
theorem blanks?_eq_none (character : Character) (rest : List Character)
    (other : ¬(character.scalar.toNat = 32 ∨ character.scalar.toNat = 9)) :
    blanks? (character :: rest) = none :=
  Option.eq_none_iff_forall_ne_some.mpr fun _ read =>
    other (Character.isBlank_iff.mp (headed?_first read))

/-- An operator starts with a character of no other class but the minus sign. -/
theorem startsWith_first (operator : Operator)
    (starts : startsWith operator.scalars (character :: rest)) :
    character.scalar.toNat ∈
      [33, 37, 38, 40, 41, 42, 43, 44, 45, 47, 60, 61, 62, 91, 93, 123, 124, 125] := by
  have head : ∃ scalar scalars, operator.scalars = scalar :: scalars ∧ scalar.toNat ∈
      [33, 37, 38, 40, 41, 42, 43, 44, 45, 47, 60, 61, 62, 91, 93, 123, 124, 125] := by
    cases operator <;> exact ⟨_, _, rfl, by decide⟩
  obtain ⟨scalar, scalars, split, known⟩ := head
  rw [split, startsWith, Bool.and_eq_true, decide_eq_true_eq] at starts
  rwa [← starts.1]

/-- The operator in front starts the text. -/
theorem operator?_starts {characters : List Character} {operator : Operator}
    (read : operator? characters = some operator) : startsWith operator.scalars characters := by
  rw [operator?] at read
  simpa using List.find?_some read

end First

/-- Which rule of the language takes how many of the characters in front. -/
inductive Reads (characters : List Character) : Rule → Nat → Prop where
  | string {length : Nat} (read : string? characters = some length) :
      Reads characters Rule.stringLiteral length
  | real {length : Nat} (read : real? characters = some length) :
      Reads characters Rule.realNumeral length
  | integer {length : Nat} (pointless : real? characters = none)
      (read : integer? characters = some length) : Reads characters Rule.integerNumeral length
  | name {length : Nat} (read : name? characters = some length) :
      Reads characters Rule.identifier length
  | comment {length : Nat} (read : comment? characters = some length) :
      Reads characters Rule.comment length
  | newlines {length : Nat} (read : newlines? characters = some length) :
      Reads characters Rule.newlineRun length
  | blanks {length : Nat} (read : blanks? characters = some length) :
      Reads characters Rule.blankRun length
  | operator {operator : Operator} (unsigned : integer? characters = none)
      (read : operator? characters = some operator) :
      Reads characters operator.rule operator.scalars.length

/-- The registry chooses a rule exactly when its class reads. -/
theorem choose_eq_some_iff {characters : List Character} {rule : Rule} {length : Nat} :
    Registry.choose Registry.language.rules characters = some (rule, length) ↔
      Reads characters rule length := by
  rw [choose_language]
  constructor
  · intro chosen
    simp only [Option.or_eq_some_iff, Option.map_eq_some_iff, Option.map_eq_none_iff,
      Prod.mk.injEq] at chosen
    obtain ⟨_, read, rfl, rfl⟩ | ⟨_, ⟨_, read, rfl, rfl⟩ | ⟨pointless, ⟨_, read, rfl, rfl⟩ |
      ⟨unsigned, ⟨_, read, rfl, rfl⟩ | ⟨_, ⟨_, read, rfl, rfl⟩ | ⟨_, ⟨_, read, rfl, rfl⟩ |
      ⟨_, ⟨_, read, rfl, rfl⟩ | ⟨_, _, read, rfl, rfl⟩⟩⟩⟩⟩⟩⟩ := chosen
    · exact .string read
    · exact .real read
    · exact .integer pointless read
    · exact .name read
    · exact .comment read
    · exact .newlines read
    · exact .blanks read
    · exact .operator unsigned read
  · intro reads
    cases characters with
    | nil => cases reads <;> contradiction
    | cons character rest =>
      -- Every class is told from those tried before it by the value of its first character.
      have noString := string?_eq_none character rest
      have noInteger := integer?_eq_none character rest
      have noName := name?_eq_none character rest
      have noComment := comment?_eq_none character rest
      have noNewlines := newlines?_eq_none character rest
      have noBlanks := blanks?_eq_none character rest
      cases reads with
      | string read =>
        rw [read]
        rfl
      | real read =>
        have first := real?_first read
        rw [noString (by omega), read]
        rfl
      | integer pointless read =>
        have first := integer?_first read
        rw [noString (by omega), pointless, read]
        rfl
      | name read =>
        have first := Character.isLetter_iff.mp (headed?_first read)
        have unsigned := noInteger (by omega)
        rw [noString (by omega), real?_eq_none unsigned, unsigned, read]
        rfl
      | comment read =>
        have first := comment?_first read
        have unsigned := noInteger (by omega)
        rw [noString (by omega), real?_eq_none unsigned, unsigned, noName (by omega), read]
        rfl
      | newlines read =>
        have first := Character.isNewline_iff.mp (headed?_first read)
        have unsigned := noInteger (by omega)
        rw [noString (by omega), real?_eq_none unsigned, unsigned, noName (by omega),
          noComment (by omega), read]
        rfl
      | blanks read =>
        have first := Character.isBlank_iff.mp (headed?_first read)
        have unsigned := noInteger (by omega)
        rw [noString (by omega), real?_eq_none unsigned, unsigned, noName (by omega),
          noComment (by omega), noNewlines (by omega), read]
        rfl
      | operator unsigned read =>
        have first := startsWith_first _ (operator?_starts read)
        simp only [List.mem_cons, List.not_mem_nil, or_false] at first
        rw [noString (by omega), real?_eq_none unsigned, unsigned, noName (by omega),
          noComment (by omega), noNewlines (by omega), noBlanks (by omega), read]
        rfl

/-- At most one class reads. -/
theorem Reads.unique {characters : List Character} {rule other : Rule} {length size : Nat}
    (one : Reads characters rule length) (another : Reads characters other size) :
    rule = other ∧ length = size := by
  have same := (choose_eq_some_iff.mpr one).symm.trans (choose_eq_some_iff.mpr another)
  simpa using same

end Lexis

end Aml
