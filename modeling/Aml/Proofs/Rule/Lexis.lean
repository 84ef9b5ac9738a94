import Mathlib
import Aml.Proofs.Pattern.Run
import Aml.Rule.Default
import Aml.Rule.Registry

/-!
# Reading the lexical classes directly

Each content rule of the language has a program that its pattern compiles to. Here stands beside
each program a reader that says directly how many characters the class takes at the front of a
text, and the two agree on every text: `string?`, `real?`, `integer?`, `name?`, `comment?`,
`newlines?` and `blanks?` are what the rules match. Later proofs use the readers and never open a
program.
-/
namespace Aml

namespace Character

/-- Whether a character is a decimal digit. -/
def isDigit (character : Character) : Bool :=
  CharSet.digits.contains character.scalar.toNat

/-- The ASCII letters, small ones first. -/
def letters : CharSet :=
  .union (.between 'a' 'z') (.between 'A' 'Z')

/-- The characters that a name goes on with. -/
def nameParts : CharSet :=
  .union (.between 'a' 'z') (.union (.between 'A' 'Z') (.union (.single '_'.toNat) CharSet.digits))

/-- Whether a character may start a name. -/
def isLetter (character : Character) : Bool :=
  letters.contains character.scalar.toNat

/-- Whether a character may stand in a name after its first letter. -/
def isNamePart (character : Character) : Bool :=
  nameParts.contains character.scalar.toNat

/-- Whether a character is a space or a tab. -/
def isBlank (character : Character) : Bool :=
  character.scalar = ' ' || character.scalar = '\t'

/-- Whether a character ends a line. -/
def isNewline (character : Character) : Bool :=
  character.scalar = '\n'

variable {character : Character}

/-- A character is known by its value. -/
theorem scalar_eq_iff (scalar : Char) :
    character.scalar = scalar ↔ character.scalar.toNat = scalar.toNat :=
  Char.toNat_inj.symm

/-- The values of digits. -/
theorem isDigit_iff :
    character.isDigit ↔ 48 ≤ character.scalar.toNat ∧ character.scalar.toNat ≤ 57 := by
  simp [isDigit, CharSet.digits, CharSet.between, CharSet.contains]

/-- The values of letters. -/
theorem isLetter_iff :
    character.isLetter ↔ 97 ≤ character.scalar.toNat ∧ character.scalar.toNat ≤ 122 ∨
      65 ≤ character.scalar.toNat ∧ character.scalar.toNat ≤ 90 := by
  simp [isLetter, letters, CharSet.between, CharSet.contains]

/-- The values of the characters that a name goes on with. -/
theorem isNamePart_iff :
    character.isNamePart ↔ 97 ≤ character.scalar.toNat ∧ character.scalar.toNat ≤ 122 ∨
      65 ≤ character.scalar.toNat ∧ character.scalar.toNat ≤ 90 ∨
      character.scalar.toNat = 95 ∨
      48 ≤ character.scalar.toNat ∧ character.scalar.toNat ≤ 57 := by
  have underscore : character.scalar.toNat = 95 ↔
      95 ≤ character.scalar.toNat ∧ character.scalar.toNat ≤ 95 := by omega
  rw [underscore]
  simp [isNamePart, nameParts, CharSet.digits, CharSet.between, CharSet.single, CharSet.contains]

/-- The values of blanks. -/
theorem isBlank_iff :
    character.isBlank ↔ character.scalar.toNat = 32 ∨ character.scalar.toNat = 9 := by
  simp [isBlank, scalar_eq_iff]

/-- The value of the newline. -/
theorem isNewline_iff : character.isNewline ↔ character.scalar.toNat = 10 := by
  simp [isNewline, scalar_eq_iff]

end Character

namespace Lexis

/-- The number of characters with a property at the front. -/
def span (holds : Character → Bool) (characters : List Character) : Nat :=
  (characters.takeWhile holds).length

/-- A character with one property and then a run of characters with another. -/
def headed? (first later : Character → Bool) : List Character → Option Nat
  | [] => none
  | character :: rest => if first character then some (span later rest + 1) else none

/-- A run of digits. -/
def digits? : List Character → Option Nat :=
  headed? Character.isDigit Character.isDigit

/-- A point and digits after it. -/
def fraction? : List Character → Option Nat
  | [] => none
  | character :: rest =>
    if character.scalar = '.' then (digits? rest).map (· + 1) else none

/-- Digits with a fraction after them. -/
def unsignedReal? (characters : List Character) : Option Nat :=
  (digits? characters).bind fun whole =>
    (fraction? (characters.drop whole)).map (whole + ·)

/-- A numeral with or without a minus sign. -/
def signed? (unsigned? : List Character → Option Nat) : List Character → Option Nat
  | [] => none
  | character :: rest =>
    if character.scalar = '-' then (unsigned? rest).map (· + 1)
    else unsigned? (character :: rest)

/-- A numeral without a point. -/
def integer? : List Character → Option Nat :=
  signed? digits?

/-- A numeral with a point. -/
def real? : List Character → Option Nat :=
  signed? unsignedReal?

/-- A name. -/
def name? : List Character → Option Nat :=
  headed? Character.isLetter Character.isNamePart

/-- A comment. -/
def comment? : List Character → Option Nat :=
  headed? (·.scalar = '#') (!·.isNewline)

/-- A run of newlines. -/
def newlines? : List Character → Option Nat :=
  headed? Character.isNewline Character.isNewline

/-- A run of spaces and tabs. -/
def blanks? : List Character → Option Nat :=
  headed? Character.isBlank Character.isBlank

/-- The rest of a string up to its closing quote. -/
def closing? : List Character → Option Nat
  | [] => none
  | character :: rest =>
    if character.scalar = '"' then some 1
    else if character.scalar = '\\' then
      match rest with
      | [] => none
      | escaped :: rest =>
        if escaped.isNewline then none else (closing? rest).map (· + 2)
    else (closing? rest).map (· + 1)

/-- A string. -/
def string? : List Character → Option Nat
  | [] => none
  | character :: rest =>
    if character.scalar = '"' then (closing? rest).map (· + 1) else none

end Lexis

/-! ## The programs of the content rules -/

namespace Rule

/-- The program of strings. -/
def stringProgram : Program where
  code := #[.accept, .consume (.single '"'.toNat) 0, .split 6 1, .consume CharSet.notNewline 2,
    .consume (.single '\\'.toNat) 3,
    .consume (.complement (.union (.single '\\'.toNat) (.single '"'.toNat))) 2, .split 5 4,
    .consume (.single '"'.toNat) 2, .check .textStart 7]
  entry := 8

/-- The program of numerals with a point. -/
def realProgram : Program where
  code := #[.accept, .split 2 0, .consume CharSet.digits 1, .consume (.single '.'.toNat) 2,
    .split 5 3, .consume CharSet.digits 4, .consume (.single '-'.toNat) 5, .split 6 5,
    .check .textStart 7]
  entry := 8

/-- The program of numerals without a point. -/
def integerProgram : Program where
  code := #[.accept, .split 2 0, .consume CharSet.digits 1, .consume (.single '-'.toNat) 2,
    .split 3 2, .check .textStart 4]
  entry := 5

/-- The program of names. -/
def nameProgram : Program where
  code := #[.accept, .split 2 0, .consume Character.nameParts 1, .consume Character.letters 1,
    .check .textStart 3]
  entry := 4

/-- The program of comments. -/
def commentProgram : Program where
  code := #[.accept, .split 2 0, .consume CharSet.notNewline 1, .consume (.single '#'.toNat) 1,
    .check .textStart 3]
  entry := 4

/-- The program of newlines. -/
def newlineProgram : Program where
  code := #[.accept, .split 2 0, .consume (.single '\n'.toNat) 1, .check .textStart 2]
  entry := 3

/-- The program of blanks. -/
def blankProgram : Program where
  code := #[.accept, .split 2 0, .consume (.union (.single ' '.toNat) (.single '\t'.toNat)) 1,
    .check .textStart 2]
  entry := 3

end Rule

namespace Lexis

open Program

/-- Newlines are outside the set of all other characters. -/
theorem notNewline_contains (character : Character) :
    CharSet.notNewline.contains character.scalar.toNat = !character.isNewline := by
  rw [CharSet.notNewline, CharSet.contains, Character.isNewline, ← CharSet.contains_single]
  rfl

/-- The minus sign is no digit. -/
theorem isDigit_of_minus {character : Character} (minus : character.scalar = '-') :
    character.isDigit = false := by
  rw [Character.isDigit, minus]
  rfl

/-- A space and a tab make up the set of blanks. -/
theorem blanks_contains (character : Character) :
    (CharSet.union (.single ' '.toNat) (.single '\t'.toNat)).contains character.scalar.toNat =
      character.isBlank := by
  rw [CharSet.contains, CharSet.contains_single, CharSet.contains_single, Character.isBlank]

/-- From a place that waits for a first character and then loops, a run reads as `headed?`. -/
theorem run_headed {program : Program} {before : Option Character} {place opening loop : Nat}
    {first later : Character → Bool} (loops : program.Loops loop later)
    (reach : ∀ after, program.reach before after [place] = [opening])
    (waiting : program.isAccepting opening = false)
    (takes : ∀ character, program.take? character opening =
      if first character then some loop else none)
    (characters : List Character) (length : Nat) :
    program.run before characters [place] length none =
      (headed? first later characters).map (length + ·) := by
  have all : [opening].all (!program.isAccepting ·) := by simp [waiting]
  cases characters with
  | nil => exact run_nil_of_waiting [opening] (reach none) all
  | cons character rest =>
    by_cases starts : first character
    · rw [run_cons_of_moves [opening] (reach _) all (by simp [takes, starts]; rfl), loops.run]
      simp only [headed?, if_pos starts, span, Option.map_some, Option.some.injEq]
      omega
    · rw [run_cons_of_stuck [opening] (reach _) all (by simp [takes, starts])]
      simp [headed?, starts]

/-- Newlines are matched by their reader. -/
theorem newlineProgram_match? (characters : List Character) :
    Rule.newlineProgram.match? characters = newlines? characters := by
  have takes (character : Character) : Rule.newlineProgram.take? character 2 =
      if character.isNewline then some 1 else none := by
    rw [Character.isNewline, ← CharSet.contains_single]
    rfl
  have loops : Rule.newlineProgram.Loops 1 Character.isNewline :=
    ⟨2, 0, fun _ _ => rfl, rfl, rfl, takes⟩
  rw [match?, run_headed loops (fun _ => rfl) rfl takes]
  simp [newlines?]

/-- Blanks are matched by their reader. -/
theorem blankProgram_match? (characters : List Character) :
    Rule.blankProgram.match? characters = blanks? characters := by
  have takes (character : Character) : Rule.blankProgram.take? character 2 =
      if character.isBlank then some 1 else none := by
    rw [← blanks_contains]
    rfl
  have loops : Rule.blankProgram.Loops 1 Character.isBlank :=
    ⟨2, 0, fun _ _ => rfl, rfl, rfl, takes⟩
  rw [match?, run_headed loops (fun _ => rfl) rfl takes]
  simp [blanks?]

/-- Comments are matched by their reader. -/
theorem commentProgram_match? (characters : List Character) :
    Rule.commentProgram.match? characters = comment? characters := by
  have loops : Rule.commentProgram.Loops 1 (!·.isNewline) :=
    ⟨2, 0, fun _ _ => rfl, rfl, rfl, fun character => by rw [← notNewline_contains]; rfl⟩
  have takes (character : Character) : Rule.commentProgram.take? character 3 =
      if decide (character.scalar = '#') then some 1 else none := by
    rw [← CharSet.contains_single]
    rfl
  rw [match?, run_headed loops (fun _ => rfl) rfl takes]
  simp [comment?]

/-- Names are matched by their reader. -/
theorem nameProgram_match? (characters : List Character) :
    Rule.nameProgram.match? characters = name? characters := by
  have loops : Rule.nameProgram.Loops 1 Character.isNamePart :=
    ⟨2, 0, fun _ _ => rfl, rfl, rfl, fun _ => rfl⟩
  have takes (character : Character) : Rule.nameProgram.take? character 3 =
      if character.isLetter then some 1 else none := rfl
  rw [match?, run_headed loops (fun _ => rfl) rfl takes]
  simp [name?]

/-- Numerals without a point are matched by their reader. -/
theorem integerProgram_match? (characters : List Character) :
    Rule.integerProgram.match? characters = integer? characters := by
  have digit (character : Character) : Rule.integerProgram.take? character 2 =
      if character.isDigit then some 1 else none := rfl
  have minus (character : Character) : Rule.integerProgram.take? character 3 =
      if decide (character.scalar = '-') then some 2 else none := by
    rw [← CharSet.contains_single]
    rfl
  have loops : Rule.integerProgram.Loops 1 Character.isDigit :=
    ⟨2, 0, fun _ _ => rfl, rfl, rfl, digit⟩
  cases characters with
  | nil => rfl
  | cons character rest =>
    rw [match?, integer?, signed?]
    by_cases negative : character.scalar = '-'
    · have moves : [3, 2].filterMap (Rule.integerProgram.take? character) = [2] := by
        simp [minus, digit, negative, isDigit_of_minus negative]
      rw [run_cons_of_moves [3, 2] rfl rfl moves, if_pos negative,
        run_headed loops (fun _ => rfl) rfl digit]
      simp [digits?, Nat.add_comm]
    · rw [if_neg negative, digits?, headed?]
      by_cases numeric : character.isDigit
      · have moves : [3, 2].filterMap (Rule.integerProgram.take? character) = [1] := by
          simp [minus, digit, negative, numeric]
        rw [run_cons_of_moves [3, 2] rfl rfl moves, loops.run, if_pos numeric, span]
        congr 1
        omega
      · have stuck : [3, 2].filterMap (Rule.integerProgram.take? character) = [] := by
          simp [minus, digit, negative, numeric]
        rw [run_cons_of_stuck [3, 2] rfl rfl stuck, if_neg numeric]

/-- After the first digit of a numeral with a point, its run takes the remaining digits and then
the fraction. -/
theorem realProgram_run_whole (characters : List Character) (before : Option Character)
    (length : Nat) :
    Rule.realProgram.run before characters [4] length none =
      (fraction? (characters.dropWhile Character.isDigit)).map
        (length + span Character.isDigit characters + ·) := by
  have whole (character : Character) : Rule.realProgram.take? character 5 =
      if character.isDigit then some 4 else none := rfl
  have point (character : Character) : Rule.realProgram.take? character 3 =
      if decide (character.scalar = '.') then some 2 else none := by
    rw [← CharSet.contains_single]
    rfl
  have digit (character : Character) : Rule.realProgram.take? character 2 =
      if character.isDigit then some 1 else none := rfl
  have loops : Rule.realProgram.Loops 1 Character.isDigit :=
    ⟨2, 0, fun _ _ => rfl, rfl, rfl, digit⟩
  induction characters generalizing before length with
  | nil => rfl
  | cons character rest ih =>
    by_cases numeric : character.isDigit
    · have different : character.scalar ≠ '.' := by
        have value := Character.isDigit_iff.mp numeric
        rw [Ne, Character.scalar_eq_iff]
        change _ ≠ 46
        omega
      have moves : [5, 3].filterMap (Rule.realProgram.take? character) = [4] := by
        simp [whole, point, different, numeric]
      rw [run_cons_of_moves [5, 3] rfl rfl moves, ih, List.dropWhile_cons_of_pos numeric]
      simp only [span, List.takeWhile_cons_of_pos numeric, List.length_cons]
      congr 1
      funext taken
      omega
    · rw [List.dropWhile_cons_of_neg numeric, fraction?, span,
        List.takeWhile_cons_of_neg numeric, List.length_nil, Nat.add_zero]
      by_cases pointed : character.scalar = '.'
      · have moves : [5, 3].filterMap (Rule.realProgram.take? character) = [2] := by
          simp [whole, point, pointed, numeric]
        rw [run_cons_of_moves [5, 3] rfl rfl moves, if_pos pointed,
          run_headed loops (fun _ => rfl) rfl digit, digits?, Option.map_map]
        congr 1
        funext taken
        simp only [Function.comp_apply]
        omega
      · have stuck : [5, 3].filterMap (Rule.realProgram.take? character) = [] := by
          simp [whole, point, pointed, numeric]
        rw [run_cons_of_stuck [5, 3] rfl rfl stuck, if_neg pointed]
        rfl

/-- What follows a run in front. -/
theorem drop_span (holds : Character → Bool) (characters : List Character) :
    characters.drop (span holds characters) = characters.dropWhile holds := by
  induction characters with
  | nil => rfl
  | cons character rest ih =>
    by_cases first : holds character
    · rw [span, List.takeWhile_cons_of_pos first, List.length_cons, List.drop_succ_cons,
        List.dropWhile_cons_of_pos first]
      exact ih
    · rw [span, List.takeWhile_cons_of_neg first, List.dropWhile_cons_of_neg first]
      rfl

/-- A digit starts a numeral with a point when a fraction follows the digits. -/
theorem unsignedReal?_cons {character : Character} (numeric : character.isDigit)
    (rest : List Character) :
    unsignedReal? (character :: rest) =
      (fraction? (rest.dropWhile Character.isDigit)).map
        (1 + span Character.isDigit rest + ·) := by
  rw [unsignedReal?, digits?, headed?, if_pos numeric, Option.bind_some, List.drop_succ_cons,
    drop_span, Nat.add_comm]

/-- Nothing but a digit starts a numeral with a point. -/
theorem unsignedReal?_cons_eq_none {character : Character} (other : ¬character.isDigit)
    (rest : List Character) : unsignedReal? (character :: rest) = none := by
  rw [unsignedReal?, digits?, headed?, if_neg other, Option.bind_none]

/-- Numerals with a point are matched by their reader. -/
theorem realProgram_match? (characters : List Character) :
    Rule.realProgram.match? characters = real? characters := by
  have whole (character : Character) : Rule.realProgram.take? character 5 =
      if character.isDigit then some 4 else none := rfl
  have minus (character : Character) : Rule.realProgram.take? character 6 =
      if decide (character.scalar = '-') then some 5 else none := by
    rw [← CharSet.contains_single]
    rfl
  cases characters with
  | nil => rfl
  | cons character rest =>
    rw [match?, real?, signed?]
    by_cases negative : character.scalar = '-'
    · have moves : [6, 5].filterMap (Rule.realProgram.take? character) = [5] := by
        simp [minus, whole, negative, isDigit_of_minus negative]
      rw [run_cons_of_moves [6, 5] rfl rfl moves, if_pos negative]
      cases rest with
      | nil => rfl
      | cons first rest =>
        by_cases numeric : first.isDigit
        · rw [run_cons_of_moves [5] rfl rfl (by simp [whole, numeric]; rfl),
            realProgram_run_whole, unsignedReal?_cons numeric, Option.map_map]
          congr 1
          funext taken
          simp only [Function.comp_apply]
          omega
        · rw [run_cons_of_stuck [5] rfl rfl (by simp [whole, numeric]),
            unsignedReal?_cons_eq_none numeric]
          rfl
    · rw [if_neg negative]
      by_cases numeric : character.isDigit
      · have moves : [6, 5].filterMap (Rule.realProgram.take? character) = [4] := by
          simp [minus, whole, negative, numeric]
        rw [run_cons_of_moves [6, 5] rfl rfl moves, realProgram_run_whole,
          unsignedReal?_cons numeric, Nat.zero_add]
      · have stuck : [6, 5].filterMap (Rule.realProgram.take? character) = [] := by
          simp [minus, whole, negative, numeric]
        rw [run_cons_of_stuck [6, 5] rfl rfl stuck, unsignedReal?_cons_eq_none numeric]

/-- After the opening quote of a string, its run goes on to the closing quote. -/
theorem stringProgram_run_body (characters : List Character) (before : Option Character)
    (length : Nat) :
    Rule.stringProgram.run before characters [2] length none =
      (closing? characters).map (length + ·) := by
  have plain (character : Character) : Rule.stringProgram.take? character 5 =
      if !(decide (character.scalar = '\\') || decide (character.scalar = '"')) then some 2
      else none := by
    rw [← CharSet.contains_single, ← CharSet.contains_single]
    rfl
  have backslash (character : Character) : Rule.stringProgram.take? character 4 =
      if decide (character.scalar = '\\') then some 3 else none := by
    rw [← CharSet.contains_single]
    rfl
  have quote (character : Character) : Rule.stringProgram.take? character 1 =
      if decide (character.scalar = '"') then some 0 else none := by
    rw [← CharSet.contains_single]
    rfl
  have escaped (character : Character) : Rule.stringProgram.take? character 3 =
      if !character.isNewline then some 2 else none := by
    rw [← notNewline_contains]
    rfl
  have closed (rest : List Character) (before : Option Character) (length : Nat) :
      Rule.stringProgram.run before rest [0] length none = some length := by
    cases rest <;> rfl
  fun_induction closing? characters generalizing before length with
  | case1 => rfl
  | case2 character rest closes =>
    have moves : [5, 4, 1].filterMap (Rule.stringProgram.take? character) = [0] := by
      simp [plain, backslash, quote, closes]
    rw [run_cons_of_moves [5, 4, 1] rfl rfl moves, closed]
    rfl
  | case3 character notClosing escapes =>
    have moves : [5, 4, 1].filterMap (Rule.stringProgram.take? character) = [3] := by
      simp [plain, backslash, quote, escapes]
    rw [run_cons_of_moves [5, 4, 1] rfl rfl moves]
    rfl
  | case4 character notClosing escapes next rest ends =>
    have moves : [5, 4, 1].filterMap (Rule.stringProgram.take? character) = [3] := by
      simp [plain, backslash, quote, escapes]
    rw [run_cons_of_moves [5, 4, 1] rfl rfl moves,
      run_cons_of_stuck [3] rfl rfl (by simp [escaped, ends])]
    rfl
  | case5 character notClosing escapes next rest goesOn ih =>
    have moves : [5, 4, 1].filterMap (Rule.stringProgram.take? character) = [3] := by
      simp [plain, backslash, quote, escapes]
    rw [run_cons_of_moves [5, 4, 1] rfl rfl moves,
      run_cons_of_moves [3] rfl rfl (by simp [escaped, goesOn]; rfl), ih, Option.map_map]
    congr 1
    funext taken
    simp only [Function.comp_apply]
    omega
  | case6 character rest notClosing notEscaping ih =>
    have moves : [5, 4, 1].filterMap (Rule.stringProgram.take? character) = [2] := by
      simp [plain, backslash, quote, notClosing, notEscaping]
    rw [run_cons_of_moves [5, 4, 1] rfl rfl moves, ih, Option.map_map]
    congr 1
    funext taken
    simp only [Function.comp_apply]
    omega

/-- Strings are matched by their reader. -/
theorem stringProgram_match? (characters : List Character) :
    Rule.stringProgram.match? characters = string? characters := by
  have quote (character : Character) : Rule.stringProgram.take? character 7 =
      if decide (character.scalar = '"') then some 2 else none := by
    rw [← CharSet.contains_single]
    rfl
  cases characters with
  | nil => rfl
  | cons character rest =>
    rw [match?, string?]
    by_cases opens : character.scalar = '"'
    · rw [run_cons_of_moves [7] rfl rfl (by simp [quote, opens]; rfl), stringProgram_run_body,
        if_pos opens]
      simp [Nat.add_comm]
    · rw [run_cons_of_stuck [7] rfl rfl (by simp [quote, opens]), if_neg opens]

end Lexis

end Aml
