import Mathlib
import Aml.Proofs.Rule.Trial
import Aml.Proofs.Scan.Judgment

/-!
# The lexical grammar of the language

`Lexis.Takes rule taken rest` says in one place what a rule takes in front of what it leaves:
the shape of the characters taken, and the condition on the first characters left that keeps the
match from going on. At every cursor the registry of the language takes exactly what the grammar
says (`Lexis.split?_language_iff`), so laws of the language are case distinctions over eight
classes.
-/
namespace Aml.Lexis

/-- What is left does not start with a character of a class. -/
def Stops (holds : Character → Bool) (rest : List Character) : Prop :=
  ∀ character ∈ rest.head?, holds character = false

/-- Digits, at least one. -/
def IsDigits (digits : List Character) : Prop :=
  digits ≠ [] ∧ ∀ character ∈ digits, character.isDigit

/-- A minus sign or nothing. -/
def IsSign (sign : List Character) : Prop :=
  sign = [] ∨ ∃ minus : Character, minus.scalar = '-' ∧ sign = [minus]

/-- The inside of a string: a quote or a backslash only after a backslash, a newline never
after one. -/
inductive IsBody : List Character → Prop where
  | nil : IsBody []
  | plain {character : Character} {rest : List Character} (unquoted : character.scalar ≠ '"')
      (unescaped : character.scalar ≠ '\\') (later : IsBody rest) : IsBody (character :: rest)
  | escape {backslash escaped : Character} {rest : List Character}
      (escapes : backslash.scalar = '\\') (inline : escaped.isNewline = false)
      (later : IsBody rest) : IsBody (backslash :: escaped :: rest)

/-- What a rule of the language takes in front of what it leaves. -/
inductive Takes : Rule → (taken rest : List Character) → Prop where
  | string {opening closing : Character} {body rest : List Character}
      (opens : opening.scalar = '"') (inner : IsBody body) (closes : closing.scalar = '"') :
      Takes Rule.stringLiteral (opening :: (body ++ [closing])) rest
  | real {sign whole fraction rest : List Character} {point : Character} (signed : IsSign sign)
      (digits : IsDigits whole) (pointed : point.scalar = '.') (places : IsDigits fraction)
      (stops : Stops Character.isDigit rest) :
      Takes Rule.realNumeral (sign ++ (whole ++ point :: fraction)) rest
  | integer {sign whole rest : List Character} (signed : IsSign sign) (digits : IsDigits whole)
      (stops : Stops Character.isDigit rest) (pointless : fraction? rest = none) :
      Takes Rule.integerNumeral (sign ++ whole) rest
  | name {first : Character} {parts rest : List Character} (starts : first.isLetter)
      (goesOn : ∀ character ∈ parts, character.isNamePart)
      (stops : Stops Character.isNamePart rest) : Takes Rule.identifier (first :: parts) rest
  | comment {mark : Character} {body rest : List Character} (marked : mark.scalar = '#')
      (inner : ∀ character ∈ body, character.isNewline = false)
      (stops : Stops (!·.isNewline) rest) : Takes Rule.comment (mark :: body) rest
  | newlines {run rest : List Character} (present : run ≠ [])
      (all : ∀ character ∈ run, character.isNewline) (stops : Stops Character.isNewline rest) :
      Takes Rule.newlineRun run rest
  | blanks {run rest : List Character} (present : run ≠ [])
      (all : ∀ character ∈ run, character.isBlank) (stops : Stops Character.isBlank rest) :
      Takes Rule.blankRun run rest
  | operator {operator : Operator} {taken rest : List Character}
      (spelled : taken.map Character.scalar = operator.scalars)
      (longest : ∀ other : Operator, startsWith other.scalars (taken ++ rest) →
        other.scalars.length ≤ operator.scalars.length)
      (unsigned : operator = .sub → Stops Character.isDigit rest) :
      Takes operator.rule taken rest

/-! ## The readers and the grammar -/

section Readers

variable {characters : List Character} {length : Nat}

/-- A run in front stops where the class does. -/
theorem stops_dropWhile (holds : Character → Bool) (characters : List Character) :
    Stops holds (characters.dropWhile holds) := by
  intro character found
  have nonempty : characters.dropWhile holds ≠ [] := by
    intro empty
    rw [empty] at found
    contradiction
  rw [List.head?_eq_some_head nonempty, Option.mem_some_iff] at found
  rw [← found]
  simpa using List.head_dropWhile_not holds nonempty

/-- What is left stops a class by its first character. -/
@[simp]
theorem stops_cons {holds : Character → Bool} {character : Character} {rest : List Character} :
    Stops holds (character :: rest) ↔ holds character = false := by
  simp [Stops]

/-- Nothing left stops every class. -/
@[simp]
theorem stops_nil (holds : Character → Bool) : Stops holds [] := by
  simp [Stops]

/-- A class with a first character is absent when the text does not start with one. -/
theorem headed?_eq_none_iff {first later : Character → Bool} :
    headed? first later characters = none ↔ Stops first characters := by
  cases characters with
  | nil => simp [headed?]
  | cons character rest => simp [headed?]

/-- A run in front of what does not go on with it is taken whole. -/
theorem span_append {holds : Character → Bool} {run rest : List Character}
    (all : ∀ character ∈ run, holds character) (stops : Stops holds rest) :
    span holds (run ++ rest) = run.length := by
  have none : rest.takeWhile holds = [] := by
    cases rest with
    | nil => rfl
    | cons character rest => exact List.takeWhile_cons_of_neg (by simp [stops_cons.mp stops])
  rw [span, List.takeWhile_append_of_pos all, none, List.append_nil]

/-- A class with a first character, in front of what does not go on with it. -/
theorem headed?_eq_some_iff {first later : Character → Bool} :
    headed? first later characters = some length ↔
      ∃ character parts rest, characters = character :: parts ++ rest ∧ first character ∧
        (∀ part ∈ parts, later part) ∧ Stops later rest ∧ length = parts.length + 1 := by
  constructor
  · intro read
    cases characters with
    | nil => contradiction
    | cons character tail =>
      rw [headed?] at read
      split at read
      · obtain rfl := Option.some.inj read
        exact ⟨character, tail.takeWhile later, tail.dropWhile later, by simp, ‹_›,
          fun _ => List.mem_takeWhile_imp, stops_dropWhile later tail, rfl⟩
      · contradiction
  · rintro ⟨character, parts, rest, rfl, starts, all, stops, rfl⟩
    rw [List.cons_append, headed?, if_pos starts, span_append all stops]

/-- A run of one class, in front of what does not go on with it. -/
theorem headed?_self_eq_some_iff {holds : Character → Bool} :
    headed? holds holds characters = some length ↔
      ∃ run rest, characters = run ++ rest ∧ run ≠ [] ∧ (∀ character ∈ run, holds character) ∧
        Stops holds rest ∧ length = run.length := by
  rw [headed?_eq_some_iff]
  constructor
  · rintro ⟨character, parts, rest, rfl, starts, all, stops, rfl⟩
    exact ⟨character :: parts, rest, rfl, by simp, List.forall_mem_cons.mpr ⟨starts, all⟩, stops,
      rfl⟩
  · rintro ⟨run, rest, rfl, present, all, stops, rfl⟩
    obtain ⟨character, parts, rfl⟩ := List.exists_cons_of_ne_nil present
    obtain ⟨starts, all⟩ := List.forall_mem_cons.mp all
    exact ⟨character, parts, rest, rfl, starts, all, stops, rfl⟩

/-- Digits, in front of something else. -/
theorem digits?_eq_some_iff :
    digits? characters = some length ↔
      ∃ digits rest, characters = digits ++ rest ∧ IsDigits digits ∧
        Stops Character.isDigit rest ∧ length = digits.length := by
  rw [digits?, headed?_self_eq_some_iff]
  simp only [IsDigits, and_assoc]

/-- A point and digits, in front of something else. -/
theorem fraction?_eq_some_iff :
    fraction? characters = some length ↔
      ∃ point digits rest, characters = point :: digits ++ rest ∧ point.scalar = '.' ∧
        IsDigits digits ∧ Stops Character.isDigit rest ∧ length = digits.length + 1 := by
  constructor
  · intro read
    cases characters with
    | nil => contradiction
    | cons point tail =>
      rw [fraction?] at read
      split at read
      · obtain ⟨found, inner, rfl⟩ := Option.map_eq_some_iff.mp read
        obtain ⟨digits, rest, rfl, all, stops, rfl⟩ := digits?_eq_some_iff.mp inner
        exact ⟨point, digits, rest, rfl, ‹_›, all, stops, rfl⟩
      · contradiction
  · rintro ⟨point, digits, rest, rfl, pointed, all, stops, rfl⟩
    have inner := digits?_eq_some_iff.mpr ⟨digits, rest, rfl, all, stops, rfl⟩
    rw [List.cons_append, fraction?, if_pos pointed, inner]
    rfl

/-- Digits before a point stop there. -/
theorem stops_point {point : Character} (pointed : point.scalar = '.') (rest : List Character) :
    Stops Character.isDigit (point :: rest) := by
  rw [stops_cons, Character.isDigit, pointed]
  rfl

/-- Digits, a point and digits, in front of something else. -/
theorem unsignedReal?_eq_some_iff :
    unsignedReal? characters = some length ↔
      ∃ whole point fraction rest, characters = (whole ++ point :: fraction) ++ rest ∧
        IsDigits whole ∧ point.scalar = '.' ∧ IsDigits fraction ∧
        Stops Character.isDigit rest ∧ length = (whole ++ point :: fraction).length := by
  rw [unsignedReal?, Option.bind_eq_some_iff]
  constructor
  · rintro ⟨_, read, mapped⟩
    obtain ⟨found, inner, rfl⟩ := Option.map_eq_some_iff.mp mapped
    obtain ⟨whole, tail, rfl, digits, _, rfl⟩ := digits?_eq_some_iff.mp read
    rw [List.drop_left] at inner
    obtain ⟨point, fraction, rest, rfl, pointed, places, stops, rfl⟩ :=
      fraction?_eq_some_iff.mp inner
    exact ⟨whole, point, fraction, rest, by simp, digits, pointed, places, stops, by simp⟩
  · rintro ⟨whole, point, fraction, rest, rfl, digits, pointed, places, stops, rfl⟩
    have inner := fraction?_eq_some_iff.mpr
      ⟨point, fraction, rest, rfl, pointed, places, stops, rfl⟩
    refine ⟨whole.length, digits?_eq_some_iff.mpr ⟨whole, point :: fraction ++ rest, by simp,
      digits, stops_point pointed _, rfl⟩, ?_⟩
    rw [List.append_assoc, List.drop_left, inner]
    simp

/-- A sign, if there is one, and what the unsigned reader takes after it. -/
theorem signed?_eq_some_iff {unsigned? : List Character → Option Nat}
    (numeric : ∀ {characters length}, unsigned? characters = some length →
      ∃ first rest, characters = first :: rest ∧ first.isDigit) :
    signed? unsigned? characters = some length ↔
      ∃ sign rest inner, characters = sign ++ rest ∧ IsSign sign ∧
        unsigned? rest = some inner ∧ length = sign.length + inner := by
  constructor
  · intro read
    cases characters with
    | nil => contradiction
    | cons character tail =>
      rw [signed?] at read
      split at read
      · obtain ⟨inner, found, rfl⟩ := Option.map_eq_some_iff.mp read
        exact ⟨[character], tail, inner, rfl, .inr ⟨character, ‹_›, rfl⟩, found, Nat.add_comm _ _⟩
      · exact ⟨[], character :: tail, length, rfl, .inl rfl, read, (Nat.zero_add _).symm⟩
  · rintro ⟨sign, rest, inner, rfl, rfl | ⟨minus, negative, rfl⟩, found, rfl⟩
    · obtain ⟨first, rest, rfl, digit⟩ := numeric found
      have plain : first.scalar ≠ '-' := fun minus => by
        rw [isDigit_of_minus minus] at digit
        contradiction
      rw [List.nil_append, signed?, if_neg plain, found, List.length_nil, Nat.zero_add]
    · rw [List.singleton_append, signed?, if_pos negative, found, Option.map_some,
        List.length_singleton, Nat.add_comm]

/-- Digits start with a digit. -/
theorem digits?_numeric (read : digits? characters = some length) :
    ∃ first rest, characters = first :: rest ∧ first.isDigit := by
  cases characters with
  | nil => contradiction
  | cons first rest => exact ⟨first, rest, rfl, headed?_first read⟩

/-- A sign and digits, in front of something else. -/
theorem integer?_eq_some_iff :
    integer? characters = some length ↔
      ∃ sign whole rest, characters = (sign ++ whole) ++ rest ∧ IsSign sign ∧ IsDigits whole ∧
        Stops Character.isDigit rest ∧ length = (sign ++ whole).length := by
  rw [integer?, signed?_eq_some_iff digits?_numeric]
  constructor
  · rintro ⟨sign, _, _, rfl, signed, read, rfl⟩
    obtain ⟨whole, rest, rfl, digits, stops, rfl⟩ := digits?_eq_some_iff.mp read
    exact ⟨sign, whole, rest, by simp, signed, digits, stops, by simp⟩
  · rintro ⟨sign, whole, rest, rfl, signed, digits, stops, rfl⟩
    exact ⟨sign, whole ++ rest, whole.length, by simp, signed,
      digits?_eq_some_iff.mpr ⟨whole, rest, rfl, digits, stops, rfl⟩, by simp⟩

/-- A sign, digits, a point and digits, in front of something else. -/
theorem real?_eq_some_iff :
    real? characters = some length ↔
      ∃ sign whole point fraction rest,
        characters = (sign ++ (whole ++ point :: fraction)) ++ rest ∧ IsSign sign ∧
        IsDigits whole ∧ point.scalar = '.' ∧ IsDigits fraction ∧
        Stops Character.isDigit rest ∧ length = (sign ++ (whole ++ point :: fraction)).length := by
  have numeric {characters : List Character} {length : Nat}
      (read : unsignedReal? characters = some length) :
      ∃ first rest, characters = first :: rest ∧ first.isDigit := by
    obtain ⟨_, digits, _⟩ := digits?_of_unsignedReal? read
    exact digits?_numeric digits
  rw [real?, signed?_eq_some_iff numeric]
  constructor
  · rintro ⟨sign, _, _, rfl, signed, read, rfl⟩
    obtain ⟨whole, point, fraction, rest, rfl, digits, pointed, places, stops, rfl⟩ :=
      unsignedReal?_eq_some_iff.mp read
    exact ⟨sign, whole, point, fraction, rest, by simp, signed, digits, pointed, places, stops,
      by simp⟩
  · rintro ⟨sign, whole, point, fraction, rest, rfl, signed, digits, pointed, places, stops, rfl⟩
    exact ⟨sign, (whole ++ point :: fraction) ++ rest, _, by simp, signed,
      unsignedReal?_eq_some_iff.mpr
        ⟨whole, point, fraction, rest, rfl, digits, pointed, places, stops, rfl⟩, by simp⟩

/-- What a string reads after its opening quote is an inside and a closing quote. -/
theorem body_of_closing? (read : closing? characters = some length) :
    ∃ body closing rest, characters = body ++ closing :: rest ∧ IsBody body ∧
      closing.scalar = '"' ∧ length = body.length + 1 := by
  fun_induction closing? characters generalizing length with
  | case1 | case3 | case4 => contradiction
  | case2 character rest closes =>
    exact ⟨[], character, rest, rfl, .nil, closes, (Option.some.inj read).symm⟩
  | case5 character unquoted escapes escaped rest goesOn ih =>
    obtain ⟨inner, found, rfl⟩ := Option.map_eq_some_iff.mp read
    obtain ⟨body, closing, rest, rfl, sound, closes, rfl⟩ := ih found
    exact ⟨character :: escaped :: body, closing, rest, rfl,
      .escape escapes (Bool.eq_false_of_not_eq_true goesOn) sound, closes, rfl⟩
  | case6 character rest unquoted unescaped ih =>
    obtain ⟨inner, found, rfl⟩ := Option.map_eq_some_iff.mp read
    obtain ⟨body, closing, rest, rfl, sound, closes, rfl⟩ := ih found
    exact ⟨character :: body, closing, rest, rfl, .plain unquoted unescaped sound, closes, rfl⟩

/-- An inside and a closing quote are what a string reads after its opening quote. -/
theorem closing?_append {body rest : List Character} {closing : Character} (sound : IsBody body)
    (closes : closing.scalar = '"') :
    closing? (body ++ closing :: rest) = some (body.length + 1) := by
  induction sound with
  | nil =>
    rw [List.nil_append, closing?.eq_def]
    simp [closes]
  | plain unquoted unescaped later ih =>
    rw [List.cons_append, closing?.eq_def]
    simp [unquoted, unescaped, ih]
  | escape escapes inline later ih =>
    rw [List.cons_append, List.cons_append, closing?.eq_def]
    simp [escapes, inline, ih]

/-- A string with its quotes. -/
theorem string?_eq_some_iff :
    string? characters = some length ↔
      ∃ opening body closing rest, characters = opening :: (body ++ [closing]) ++ rest ∧
        opening.scalar = '"' ∧ IsBody body ∧ closing.scalar = '"' ∧
        length = (opening :: (body ++ [closing])).length := by
  constructor
  · intro read
    cases characters with
    | nil => contradiction
    | cons opening tail =>
      rw [string?] at read
      split at read
      · obtain ⟨inner, found, rfl⟩ := Option.map_eq_some_iff.mp read
        obtain ⟨body, closing, rest, rfl, sound, closes, rfl⟩ := body_of_closing? found
        exact ⟨opening, body, closing, rest, by simp, ‹_›, sound, closes, by simp⟩
      · contradiction
  · rintro ⟨opening, body, closing, rest, rfl, opens, sound, closes, rfl⟩
    rw [List.cons_append, string?, if_pos opens, List.append_assoc, List.singleton_append,
      closing?_append sound closes]
    simp

/-- A fixed text starts characters when its values are the first of theirs. -/
theorem startsWith_iff {scalars : List Char} :
    startsWith scalars characters ↔ scalars <+: characters.map Character.scalar := by
  induction scalars generalizing characters with
  | nil => simp [startsWith]
  | cons scalar scalars ih =>
    cases characters with
    | nil => simp [startsWith]
    | cons character rest =>
      rw [startsWith, Bool.and_eq_true, decide_eq_true_eq, ih, List.map_cons,
        List.cons_prefix_cons]

/-- Operators are tried longer ones first. -/
theorem trialOrder_pairwise : Operator.trialOrder.Pairwise fun earlier later =>
    later.scalars.length ≤ earlier.scalars.length := by
  decide

/-- No two operators are spelled alike. -/
theorem scalars_injective : Function.Injective Operator.scalars := by
  intro operator other same
  have distinct : (Operator.trialOrder.map Operator.scalars).Nodup := by decide
  exact List.inj_on_of_nodup_map distinct (Operator.mem_trialOrder operator)
    (Operator.mem_trialOrder other) same

/-- Two operators of one length that start the same text are the same. -/
theorem operator_unique {operator other : Operator}
    (one : startsWith operator.scalars characters) (another : startsWith other.scalars characters)
    (sized : operator.scalars.length = other.scalars.length) : operator = other :=
  scalars_injective ((List.prefix_of_prefix_length_le (startsWith_iff.mp one)
    (startsWith_iff.mp another) sized.le).eq_of_length sized)

/-- The operator in front is the longest that starts the text. -/
theorem operator?_eq_some_iff {operator : Operator} :
    operator? characters = some operator ↔ startsWith operator.scalars characters ∧
      ∀ other : Operator, startsWith other.scalars characters →
        other.scalars.length ≤ operator.scalars.length := by
  have longest {found : Operator} (read : operator? characters = some found) (other : Operator)
      (starts : startsWith other.scalars characters) :
      other.scalars.length ≤ found.scalars.length := by
    obtain ⟨_, earlier, later, order, missed⟩ := List.find?_eq_some_iff_append.mp read
    have listed := Operator.mem_trialOrder other
    have sorted := trialOrder_pairwise
    rw [order] at listed sorted
    obtain before | rfl | after : other ∈ earlier ∨ other = found ∨ other ∈ later := by
      simpa using listed
    · have stuck := missed other before
      simp [starts] at stuck
    · exact Nat.le_refl _
    · exact (List.pairwise_cons.mp (List.pairwise_append.mp sorted).2.1).1 other after
  constructor
  · exact fun read => ⟨operator?_starts read, longest read⟩
  · rintro ⟨starts, greatest⟩
    cases read : operator? characters with
    | none =>
      have missed := List.find?_eq_none.mp read operator (Operator.mem_trialOrder operator)
      contradiction
    | some found =>
      have sized := Nat.le_antisymm (longest read operator starts)
        (greatest found (operator?_starts read))
      rw [operator_unique starts (operator?_starts read) sized]

end Readers

/-! ## The grammar and the registry -/

section Grammar

variable {taken rest : List Character} {rule : Rule}

/-- A numeral in front goes on as a real exactly when a fraction follows it. -/
theorem real?_append {sign whole : List Character} (signed : IsSign sign)
    (digits : IsDigits whole) (stops : Stops Character.isDigit rest) :
    real? ((sign ++ whole) ++ rest) =
      (fraction? rest).map ((sign ++ whole).length + ·) := by
  have unsigned : unsignedReal? (whole ++ rest) = (fraction? rest).map (whole.length + ·) := by
    rw [unsignedReal?, digits?_eq_some_iff.mpr ⟨whole, rest, rfl, digits, stops, rfl⟩,
      Option.bind_some, List.drop_left]
  obtain rfl | ⟨minus, negative, rfl⟩ := signed
  · obtain ⟨first, later, rfl⟩ := List.exists_cons_of_ne_nil digits.1
    have plain : first.scalar ≠ '-' := fun minus => by
      have digit := digits.2 first List.mem_cons_self
      rw [isDigit_of_minus minus] at digit
      contradiction
    rw [List.nil_append, ← unsigned, List.cons_append, real?, signed?, if_neg plain]
  · rw [List.append_assoc, List.singleton_append, real?, signed?, if_pos negative, unsigned,
      Option.map_map]
    congr 1
    funext inner
    simp only [Function.comp_apply, List.singleton_append, List.length_cons]
    omega

/-- The characters of operators are in ASCII, and none of them starts a gap. -/
theorem scalars_ascii (operator : Operator) : ∀ scalar ∈ operator.scalars, scalar.toNat < 0x80 ∧
    scalar.toNat ≠ 32 ∧ scalar.toNat ≠ 9 ∧ scalar.toNat ≠ 10 ∧ scalar.toNat ≠ 35 := by
  cases operator <;> simp [Operator.scalars, Operator.spelling]

/-- The bytes of an operator spell its characters. -/
theorem scalar_characters (operator : Operator) :
    (Text.ofString operator.spelling).characters.map Character.scalar = operator.scalars := by
  cases operator <;> rfl

/-- An operator starts with no digit, and with a minus sign only if it is one or assigns. -/
theorem scalars_unsigned (operator : Operator) :
    ∃ scalar scalars, operator.scalars = scalar :: scalars ∧
      CharSet.digits.contains scalar.toNat = false ∧
      (scalar = '-' → operator = .sub ∧ scalars = [] ∨ scalars = ['=']) := by
  cases operator <;> exact ⟨_, _, rfl, by decide, by decide⟩

/-- An operator in front starts no numeral, unless it is a minus sign before a digit. -/
theorem integer?_of_operator {operator : Operator}
    (spelled : taken.map Character.scalar = operator.scalars)
    (unsigned : operator = .sub → Stops Character.isDigit rest) :
    integer? (taken ++ rest) = none := by
  obtain ⟨scalar, scalars, split, plain, minus⟩ := scalars_unsigned operator
  rw [split, List.map_eq_cons_iff] at spelled
  obtain ⟨first, parts, rfl, rfl, later⟩ := spelled
  rw [List.cons_append, integer?, signed?]
  split
  · have stops : Stops Character.isDigit (parts ++ rest) := by
      obtain ⟨rfl, rfl⟩ | rfl := minus ‹_›
      · rw [List.map_eq_nil_iff.mp later, List.nil_append]
        exact unsigned rfl
      · obtain ⟨second, rfl, equal⟩ := List.map_eq_singleton_iff.mp later
        rw [List.singleton_append, stops_cons, Character.isDigit, equal]
        rfl
    rw [digits?, headed?_eq_none_iff.mpr stops, Option.map_none]
  · rw [digits?, headed?_eq_none_iff, stops_cons]
    exact plain

/-- A class reads exactly what the grammar lets its rule take. -/
theorem reads_iff_takes : Reads (taken ++ rest) rule taken.length ↔ Takes rule taken rest := by
  constructor
  · generalize sized : taken.length = length
    generalize whole : taken ++ rest = characters
    intro reads
    cases reads with
    | string read =>
      obtain ⟨opening, body, closing, left, rfl, opens, sound, closes, rfl⟩ :=
        string?_eq_some_iff.mp read
      obtain ⟨rfl, rfl⟩ := List.append_inj whole sized
      exact .string opens sound closes
    | real read =>
      obtain ⟨sign, digits, point, fraction, left, rfl, signed, sound, pointed, places, stops,
        rfl⟩ := real?_eq_some_iff.mp read
      obtain ⟨rfl, rfl⟩ := List.append_inj whole sized
      exact .real signed sound pointed places stops
    | integer pointless read =>
      obtain ⟨sign, digits, left, rfl, signed, sound, stops, rfl⟩ := integer?_eq_some_iff.mp read
      obtain ⟨rfl, rfl⟩ := List.append_inj whole sized
      rw [real?_append signed sound stops, Option.map_eq_none_iff] at pointless
      exact .integer signed sound stops pointless
    | name read =>
      obtain ⟨first, parts, left, rfl, starts, all, stops, rfl⟩ := headed?_eq_some_iff.mp read
      obtain ⟨rfl, rfl⟩ := List.append_inj whole sized
      exact .name starts all stops
    | comment read =>
      obtain ⟨mark, body, left, rfl, marked, all, stops, rfl⟩ := headed?_eq_some_iff.mp read
      obtain ⟨rfl, rfl⟩ := List.append_inj whole sized
      exact .comment (of_decide_eq_true marked) (by simpa using all) stops
    | newlines read =>
      obtain ⟨run, left, rfl, present, all, stops, rfl⟩ := headed?_self_eq_some_iff.mp read
      obtain ⟨rfl, rfl⟩ := List.append_inj whole sized
      exact .newlines present all stops
    | blanks read =>
      obtain ⟨run, left, rfl, present, all, stops, rfl⟩ := headed?_self_eq_some_iff.mp read
      obtain ⟨rfl, rfl⟩ := List.append_inj whole sized
      exact .blanks present all stops
    | @operator operator unsigned read =>
      obtain ⟨starts, longest⟩ := operator?_eq_some_iff.mp read
      subst whole
      have spelled : taken.map Character.scalar = operator.scalars := by
        have found := startsWith_iff.mp starts
        have within : taken.map Character.scalar <+: (taken ++ rest).map Character.scalar :=
          List.prefix_append taken rest |>.map Character.scalar
        have equal : (taken.map Character.scalar).length = operator.scalars.length := by
          rw [List.length_map, sized]
        exact (List.prefix_of_prefix_length_le within found equal.le).eq_of_length equal
      refine .operator spelled longest ?_
      rintro rfl
      have single : taken.map Character.scalar = ['-'] := spelled
      obtain ⟨minus, rfl, negative⟩ := List.map_eq_singleton_iff.mp single
      rw [List.singleton_append, integer?, signed?, if_pos negative, Option.map_eq_none_iff,
        digits?, headed?_eq_none_iff] at unsigned
      exact unsigned
  · intro takes
    cases takes with
    | string opens inner closes =>
      exact .string (string?_eq_some_iff.mpr ⟨_, _, _, _, rfl, opens, inner, closes, rfl⟩)
    | real signed digits pointed places stops =>
      exact .real (real?_eq_some_iff.mpr
        ⟨_, _, _, _, _, rfl, signed, digits, pointed, places, stops, rfl⟩)
    | integer signed digits stops pointless =>
      refine .integer ?_ (integer?_eq_some_iff.mpr
        ⟨_, _, _, rfl, signed, digits, stops, rfl⟩)
      rw [real?_append signed digits stops, pointless, Option.map_none]
    | name starts goesOn stops =>
      exact .name (headed?_eq_some_iff.mpr ⟨_, _, _, rfl, starts, goesOn, stops, rfl⟩)
    | comment marked inner stops =>
      exact .comment (headed?_eq_some_iff.mpr
        ⟨_, _, _, rfl, decide_eq_true marked, by simpa using inner, stops, rfl⟩)
    | newlines present all stops =>
      exact .newlines (headed?_self_eq_some_iff.mpr ⟨_, _, rfl, present, all, stops, rfl⟩)
    | blanks present all stops =>
      exact .blanks (headed?_self_eq_some_iff.mpr ⟨_, _, rfl, present, all, stops, rfl⟩)
    | @operator operator _ _ spelled longest unsigned =>
      have starts : startsWith operator.scalars (taken ++ rest) := by
        rw [startsWith_iff, List.map_append, spelled]
        exact List.prefix_append _ _
      have sized : operator.scalars.length = taken.length := by
        rw [← spelled, List.length_map]
      rw [← sized]
      exact .operator (integer?_of_operator spelled unsigned)
        (operator?_eq_some_iff.mpr ⟨starts, longest⟩)

/-- Every rule of the language takes something. -/
theorem Takes.present (takes : Takes rule taken rest) : taken ≠ [] := by
  cases takes with
  | string | name | comment => simp
  | real => simp
  | integer _ digits => simp [digits.1]
  | newlines present | blanks present => exact present
  | @operator operator _ _ spelled =>
    obtain ⟨_, _, split, _⟩ := scalars_unsigned operator
    rintro rfl
    rw [split] at spelled
    contradiction

/-- A comment ends no line. -/
theorem isNewline_of_comment {mark : Character} {body : List Character}
    (marked : mark.scalar = '#') (inner : ∀ character ∈ body, character.isNewline = false) :
    ∀ character ∈ mark :: body, character.isNewline = false := by
  refine List.forall_mem_cons.mpr ⟨?_, inner⟩
  rw [Character.isNewline, marked]
  rfl

/-- A match ends in ASCII or where its line does, and only a run of newlines ends in one. -/
theorem Takes.ending (takes : Takes rule taken rest) :
    ∃ front last, taken = front ++ [last] ∧
      (last.scalar.toNat < 0x80 ∨ Stops (!·.isNewline) rest) ∧
      (last.isNewline → rule.suppress = true ∧ ∀ character ∈ taken, character.isNewline) := by
  have of_tail (before tail : List Character) (split : taken = before ++ tail)
      (present : tail ≠ [])
      (inline : ∀ character ∈ tail, character.scalar.toNat < 0x80 ∧
        character.scalar.toNat ≠ 10) :
      ∃ front last, taken = front ++ [last] ∧
        (last.scalar.toNat < 0x80 ∨ Stops (!·.isNewline) rest) ∧
        (last.isNewline → rule.suppress = true ∧ ∀ character ∈ taken, character.isNewline) := by
    obtain ⟨ascii, other⟩ := inline _ (List.getLast_mem present)
    refine ⟨before ++ tail.dropLast, tail.getLast present, ?_, .inl ascii, fun ends => ?_⟩
    · rw [split, List.append_assoc, List.dropLast_append_getLast]
    · exact absurd (Character.isNewline_iff.mp ends) other
  have of_digits (before digits : List Character) (split : taken = before ++ digits)
      (numeric : IsDigits digits) :=
    of_tail before digits split numeric.1 fun character member => by
      have := Character.isDigit_iff.mp (numeric.2 character member)
      omega
  have present := takes.present
  cases takes with
  | @string opening closing body _ opens inner closes =>
    refine of_tail (opening :: body) [closing] rfl (by simp) ?_
    rw [List.forall_mem_singleton, closes]
    decide
  | @real sign whole fraction _ point signed digits pointed places stops =>
    exact of_digits (sign ++ (whole ++ [point])) fraction (by simp) places
  | @integer sign whole _ signed digits => exact of_digits sign whole rfl digits
  | @name first parts _ starts goesOn =>
    refine of_tail [] (first :: parts) rfl present (List.forall_mem_cons.mpr ⟨?_, ?_⟩)
    · have := Character.isLetter_iff.mp starts
      omega
    · intro part member
      have := Character.isNamePart_iff.mp (goesOn part member)
      omega
  | @comment mark body _ marked inner stops =>
    have inline : ((mark :: body).getLast present).isNewline = false :=
      isNewline_of_comment marked inner _ (List.getLast_mem present)
    refine ⟨_, _, (List.dropLast_append_getLast present).symm, .inr stops, fun ends => ?_⟩
    rw [inline] at ends
    contradiction
  | newlines _ all =>
    have ascii := Character.isNewline_iff.mp (all _ (List.getLast_mem present))
    exact ⟨_, _, (List.dropLast_append_getLast present).symm, .inl (by omega),
      fun _ => ⟨rfl, all⟩⟩
  | blanks _ all =>
    refine of_tail [] taken rfl present fun character member => ?_
    have := Character.isBlank_iff.mp (all character member)
    omega
  | @operator operator _ _ spelled =>
    refine of_tail [] taken rfl present fun character member => ?_
    have scalar : character.scalar ∈ operator.scalars := by
      rw [← spelled]
      exact List.mem_map_of_mem member
    obtain ⟨ascii, _, _, inline, _⟩ := scalars_ascii operator _ scalar
    exact ⟨ascii, inline⟩

/-- At every cursor the registry of the language takes what the grammar says. -/
theorem split?_language_iff {characters : List Character} :
    Registry.language.split? characters = some (rule, taken, rest) ↔
      characters = taken ++ rest ∧ Takes rule taken rest := by
  rw [Registry.split?_eq_some_iff, choose_eq_some_iff]
  constructor
  · rintro ⟨rfl, _, reads⟩
    exact ⟨rfl, reads_iff_takes.mp reads⟩
  · rintro ⟨rfl, takes⟩
    exact ⟨rfl, takes.present, reads_iff_takes.mpr takes⟩

end Grammar

end Aml.Lexis
