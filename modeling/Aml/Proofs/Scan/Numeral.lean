import Mathlib
import Aml.Proofs.Number.Denotation
import Aml.Proofs.Scan.Failure

/-!
# Numerals are converted exactly or refused

When a scan gets to a match, the stream answers the next call with what the match becomes: its token
(`Scanner.Reaches.emits`) or its error (`Scanner.Reaches.fails`). A numeral is therefore emitted
with the number that it is read as (`Scanner.Encounters.integer_read`,
`Scanner.Encounters.real_read`), or the scan fails there because this number is out of range. Which
of the two happens is decided by the exact value of the numeral, however long it is
(`Scanner.numerals_exact`).
-/
namespace Aml.Scanner

open Numeral

/-- A scan has made some tokens and has got to a cursor where a rule takes a lexeme. -/
structure Encounters (scanner : Scanner) (source : Text) (tokens : List Token) (cursor : Cursor)
    (rule : Rule) (lexeme : Text) : Prop where
  walk : scanner.Reaches (.start source) tokens cursor
  takes : ∃ taken rest, scanner.registry.split? cursor.rest = some (rule, taken, rest) ∧
    lexeme = Text.ofCharacters taken

/-- After some tokens a stream emits one more. -/
def Emits (scanner : Scanner) (source : Text) (tokens : List Token) (token : Token) : Prop :=
  (Stream.ask (tokens.length + 1) (scanner.stream source)).1 = (tokens ++ [token]).map .token

/-- The error of a numeral that is out of range. -/
def refusal (form : NumeralForm) (lexeme : Text) (line : Int) (position : Position) : ScanError :=
  .malformedNumber lexeme form.kind line position (some (.numeral form lexeme .outOfRange))

/-- After some tokens a stream fails, and so does the scan: a numeral at the cursor is out of range.
The error has the line of the stream and the position of the cursor. -/
structure Refuses (scanner : Scanner) (source : Text) (tokens : List Token) (cursor : Cursor)
    (form : NumeralForm) (lexeme : Text) : Prop where
  answers : (Stream.ask (tokens.length + 1) (scanner.stream source)).1 = tokens.map .token ++
    [.failed (refusal form lexeme ((scanner.stream source).counter (tokens.length + 1))
      cursor.position)]
  scan : scanner.scan source = .error
    (refusal form lexeme ((scanner.stream source).counter (tokens.length + 1)) cursor.position)

/-- What is emitted is not refused. -/
theorem Emits.not_refuses {scanner : Scanner} {source : Text} {tokens : List Token}
    {token : Token} {cursor : Cursor} {form : NumeralForm} {lexeme : Text}
    (emits : scanner.Emits source tokens token) :
    ¬scanner.Refuses source tokens cursor form lexeme := by
  intro refuses
  have same := emits.symm.trans refuses.answers
  rw [List.map_append, List.map_singleton] at same
  have last := List.append_cancel_left same
  cases List.head_eq_of_cons_eq last

section Walks

variable {scanner : Scanner} {source : Text} {tokens : List Token} {cursor : Cursor} {rule : Rule}
  {taken rest : List Character}

/-- A match that becomes a token is emitted after the tokens before it. -/
theorem Reaches.emits (walk : scanner.Reaches (.start source) tokens cursor)
    (split : scanner.registry.split? cursor.rest = some (rule, taken, rest)) {token : Token}
    (read : scanner.readAt cursor rule taken = .token token) :
    scanner.Emits source tokens token := by
  obtain ⟨later, found, scans⟩ := (scanner.scans source).after walk
  have next := scans.of_split split
  rw [readAt] at read
  rw [read] at next
  obtain ⟨others, rfl, _⟩ := next
  have answers := (scanner.ask_stream source (tokens.length + 1)).1
  have kept : (tokens ++ token :: others).take (tokens.length + 1) = tokens ++ [token] := by
    simp [List.take_append]
  have surplus : tokens.length + 1 - (tokens ++ token :: others).length = 0 := by
    rw [List.length_append, List.length_cons]
    omega
  rw [found, kept, surplus, List.replicate_zero, List.append_nil] at answers
  exact answers

/-- A match that fails, though not for the end of the input, ends the scan after the tokens before
it, on the line of the stream. -/
theorem Reaches.fails (walk : scanner.Reaches (.start source) tokens cursor)
    (split : scanner.registry.split? cursor.rest = some (rule, taken, rest)) {error : ScanError}
    (read : scanner.readAt cursor rule taken = .failed error)
    (goesOn : error.endsInput = false) :
    (Stream.ask (tokens.length + 1) (scanner.stream source)).1 =
        tokens.map .token ++ [.failed error] ∧
      scanner.scan source = .error error ∧
      (scanner.stream source).counter (tokens.length + 1) = cursor.line := by
  obtain ⟨later, found, scans⟩ := (scanner.scans source).after walk
  have next := scans.of_split split
  rw [readAt] at read
  rw [read] at next
  obtain ⟨rfl, counted, met⟩ := next
  rw [List.append_nil] at found
  have answers := (scanner.ask_stream source (tokens.length + 1)).1
  have kept : tokens.take (tokens.length + 1) = tokens :=
    List.take_of_length_le (Nat.le_succ _)
  have surplus : tokens.length + 1 - tokens.length = 1 := by omega
  rw [found, met, kept, surplus, List.replicate_one, Answer.last] at answers
  have seen : (scanner.scanUntilFailure source).2 = some error := by
    rw [scanUntilFailure_snd, met]
    simp only [Option.filter, goesOn, Bool.not_false, if_true]
  refine ⟨answers, scan_eq_error_iff.mpr seen, ?_⟩
  rw [scanner.counter_stream source (by rw [found]; omega), counted]

/-- A numeral that is read as out of range is refused. -/
theorem Reaches.refuses {form : NumeralForm}
    (walk : scanner.Reaches (.start source) tokens cursor)
    (split : scanner.registry.split? cursor.rest = some (rule, taken, rest))
    (read : scanner.readAt cursor rule taken =
      .failed (refusal form (Text.ofCharacters taken) cursor.line cursor.position)) :
    scanner.Refuses source tokens cursor form (Text.ofCharacters taken) := by
  obtain ⟨answers, failed, counted⟩ := walk.fails split read rfl
  rw [← counted] at answers failed
  exact ⟨answers, failed⟩

end Walks

namespace Encounters

variable {table : KeywordTable} {source : Text} {tokens : List Token} {cursor : Cursor}
  {rule : Rule} {lexeme : Text}

/-- The cursor stands right before the lexeme in the source, and its position is counted up to
there. -/
theorem located {scanner : Scanner}
    (found : scanner.Encounters source tokens cursor rule lexeme) :
    ∃ before after, source = before ++ (lexeme ++ after) ∧
      cursor.position = Position.start.advance before := by
  obtain ⟨taken, rest, split, rfl⟩ := found.takes
  obtain ⟨front, whole, counted⟩ := found.walk.counted
  obtain ⟨spelled, _⟩ := Registry.split?_eq_some_iff.mp split
  rw [spelled] at whole
  refine ⟨Text.ofCharacters front, Text.ofCharacters rest, ?_, counted⟩
  rw [← Text.ofCharacters_append]
  exact Text.eq_append_of_characters whole

/-- What a numeral without a point that a scan gets to is made of. -/
theorem split_integer
    (found : (language table).Encounters source tokens cursor Rule.integerNumeral lexeme) :
    ∃ negative digits, IsNumeral digits ∧ lexeme = sign negative ++ digits := by
  obtain ⟨taken, rest, split, rfl⟩ := found.takes
  obtain ⟨spelled, takes⟩ := Lexis.split?_language_iff.mp split
  have sound := found.walk.sound
  rw [spelled] at sound
  obtain ⟨minus, whole, rfl, signed, digits⟩ := Lexis.accepts_integerNumeral.mp takes.accepts.2
  obtain ⟨negative, same, shaped⟩ :=
    Lexis.ofCharacters_integer (List.forall_mem_append.mp sound).1 signed digits
  exact ⟨negative, Text.ofCharacters whole, shaped, same⟩

/-- What a numeral with a point that a scan gets to is made of. -/
theorem split_real
    (found : (language table).Encounters source tokens cursor Rule.realNumeral lexeme) :
    ∃ negative whole places, IsNumeral whole ∧ IsNumeral places ∧
      lexeme = sign negative ++ (whole ++ point :: places) := by
  obtain ⟨taken, rest, split, rfl⟩ := found.takes
  obtain ⟨spelled, takes⟩ := Lexis.split?_language_iff.mp split
  have sound := found.walk.sound
  rw [spelled] at sound
  obtain ⟨minus, whole, dot, fraction, rfl, signed, digits, pointed, places⟩ :=
    Lexis.accepts_realNumeral.mp takes.accepts.2
  obtain ⟨negative, same, shaped, placed⟩ :=
    Lexis.ofCharacters_real (List.forall_mem_append.mp sound).1 signed digits pointed places
  exact ⟨negative, Text.ofCharacters whole, Text.ofCharacters fraction, shaped, placed, same⟩

/-- An integer that is read is emitted with its number, and one that is out of range is refused. -/
theorem integer_read
    (found : (language table).Encounters source tokens cursor Rule.integerNumeral lexeme) :
    (∀ number, decimal lexeme = .ok number → (language table).Emits source tokens
      ⟨.operand .integer, lexeme, some (.integer number), cursor.line, cursor.position⟩) ∧
    (decimal lexeme = .error .outOfRange →
      (language table).Refuses source tokens cursor .integer lexeme) := by
  obtain ⟨taken, rest, split, rfl⟩ := found.takes
  have read := Piece.read_integerNumeral table (Text.ofCharacters taken) cursor.line
    cursor.position
  constructor
  · intro number converted
    rw [converted] at read
    exact found.walk.emits split read
  · intro refused
    rw [refused] at read
    exact found.walk.refuses split read

/-- A real that is read is emitted with its number, and one that is out of range is refused. -/
theorem real_read
    (found : (language table).Encounters source tokens cursor Rule.realNumeral lexeme) :
    (∀ number, real lexeme = .ok number → (language table).Emits source tokens
      ⟨.operand .real, lexeme, some (.real number), cursor.line, cursor.position⟩) ∧
    (real lexeme = .error .outOfRange →
      (language table).Refuses source tokens cursor .real lexeme) := by
  obtain ⟨taken, rest, split, rfl⟩ := found.takes
  have read := Piece.read_realNumeral table (Text.ofCharacters taken) cursor.line
    cursor.position
  constructor
  · intro number converted
    rw [converted] at read
    exact found.walk.emits split read
  · intro refused
    rw [refused] at read
    exact found.walk.refuses split read

end Encounters

/-- Numerals of any length are converted exactly or refused. With the rules of the language and any
keyword table, an integer that a scan gets to is emitted with the number that it denotes if this
fits in 64 bits with sign. Otherwise the scan fails there, as out of range, with the lexeme, its
position and the line of the stream. A real fails so exactly when the magnitude of its exact value
reaches the middle between the largest finite number and the power of two after it, and is emitted
otherwise. The converter of integers gives a value to the texts of an optional sign and digits that
denote an integer of 64 bits, namely this integer, and refuses every other text. -/
theorem numerals_exact {table : Option KeywordTable} {scanner : Scanner}
    (built : Scanner.build table Rule.defaults = .ok scanner) :
    (∀ source tokens cursor rule lexeme,
      scanner.Encounters source tokens cursor rule lexeme →
      ∃ before after, source = before ++ (lexeme ++ after) ∧
        cursor.position = Position.start.advance before) ∧
    (∀ source tokens cursor lexeme,
      scanner.Encounters source tokens cursor Rule.integerNumeral lexeme →
      (∃ negative digits, IsNumeral digits ∧ lexeme = sign negative ++ digits) ∧
      ∀ negative digits, IsNumeral digits → lexeme = sign negative ++ digits →
        (InRange (signedValue negative (value digits)) →
          scanner.Emits source tokens ⟨.operand .integer, lexeme,
            some (.integer (signedValue negative (value digits))), cursor.line,
            cursor.position⟩) ∧
        (¬InRange (signedValue negative (value digits)) →
          scanner.Refuses source tokens cursor .integer lexeme)) ∧
    (∀ source tokens cursor lexeme,
      scanner.Encounters source tokens cursor Rule.realNumeral lexeme →
      (∃ negative whole places, IsNumeral whole ∧ IsNumeral places ∧
        lexeme = sign negative ++ (whole ++ point :: places)) ∧
      ∀ negative whole places, IsNumeral whole → IsNumeral places →
        lexeme = sign negative ++ (whole ++ point :: places) →
        (scanner.Refuses source tokens cursor .real lexeme ↔
          2 ^ 1024 - 2 ^ 970 ≤ |exact negative whole places|) ∧
        (|exact negative whole places| < 2 ^ 1024 - 2 ^ 970 → ∃ number,
          scanner.Emits source tokens ⟨.operand .real, lexeme, some (.real number), cursor.line,
            cursor.position⟩)) ∧
    ∀ text value, Converter.integer.convert text = .ok value ↔
      ∃ number, Denotes text number ∧ InRange number ∧ value = some (.integer number) := by
  obtain ⟨words, _, rfl⟩ := language_of_built built
  refine ⟨fun _ _ _ _ _ => Encounters.located, ?_, ?_,
    fun _ _ => Converter.convert_integer_eq_ok_iff⟩
  · intro source tokens cursor lexeme found
    refine ⟨found.split_integer, ?_⟩
    rintro negative digits shaped rfl
    obtain ⟨emitted, refused⟩ := found.integer_read
    rw [decimal_sign negative shaped] at emitted refused
    exact ⟨fun inside => emitted _ (if_pos inside), fun outside => refused (if_neg outside)⟩
  · intro source tokens cursor lexeme found
    refine ⟨found.split_real, ?_⟩
    rintro negative whole places shaped placed rfl
    obtain ⟨emitted, refused⟩ := found.real_read
    obtain ⟨small, number, _, read⟩ | ⟨large, read⟩ := real_numeral_cases negative shaped placed
    · have emits := emitted number read
      refine ⟨⟨fun refuses => ?_, fun reaches => ?_⟩, fun _ => ⟨number, emits⟩⟩
      · exact absurd refuses emits.not_refuses
      · exact absurd small reaches.not_gt
    · exact ⟨⟨fun _ => large, fun _ => refused read⟩, fun small => absurd large small.not_ge⟩

/-- The least integer, with leading zeros, is emitted, and the one below it is refused. -/
theorem numerals_exact_least :
    (language .empty).Emits ("-009223372036854775808" : String) []
        ⟨.operand .integer, "-009223372036854775808", some (.integer (-9223372036854775808)), 1,
          .start⟩ ∧
      (language .empty).Refuses ("-9223372036854775809" : String) []
        (.start ("-9223372036854775809" : String)) .integer "-9223372036854775809" := by
  have exactly := (numerals_exact (build_defaults .empty)).2.1
  have least : (language .empty).Encounters ("-009223372036854775808" : String) []
      (.start ("-009223372036854775808" : String)) Rule.integerNumeral "-009223372036854775808" :=
    ⟨.refl _, _, [], by rfl, by rfl⟩
  have below : (language .empty).Encounters ("-9223372036854775809" : String) []
      (.start ("-9223372036854775809" : String)) Rule.integerNumeral "-9223372036854775809" :=
    ⟨.refl _, _, [], by rfl, by rfl⟩
  constructor
  · have shaped : IsNumeral ("009223372036854775808" : String) := ⟨by decide, by decide +kernel⟩
    exact ((exactly _ _ _ _ least).2 true _ shaped (by rfl)).1 (by decide +kernel)
  · have shaped : IsNumeral ("9223372036854775809" : String) := ⟨by decide, by decide +kernel⟩
    exact ((exactly _ _ _ _ below).2 true _ shaped (by rfl)).2 (by decide +kernel)

end Aml.Scanner
