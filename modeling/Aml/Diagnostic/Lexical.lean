import Aml.Diagnostic.Basic
import Aml.Scan.Error

/-!
# Diagnostics of failures

A lexical error becomes a diagnostic at its own position: an illegal character with a suggestion
for the characters that are often mistyped, or a malformed number with a note on its range. A
keyword table that cannot be loaded becomes a diagnostic without a position.
-/
namespace Aml

namespace ErrorCode

/-- No rule matches the input. -/
def illegalCharacter : String := "E0001"

/-- A numeral has no value. -/
def malformedNumber : String := "E0002"

/-- A keyword table cannot be loaded. -/
def keywordTable : String := "E0900"

/-- What a code stands for. -/
def describe (code : Text) : String :=
  if code = illegalCharacter then "Character does not start any token of the language"
  else if code = malformedNumber then "Numeric literal is out of range or badly formed"
  else if code = keywordTable then "Keyword table file is missing or invalid"
  else "Unknown error code"

end ErrorCode

namespace Diagnostic

/-- The suggestion for a character that no rule accepts. -/
def suggestion? : Char → Option Suggestion
  | '&' => some ⟨"did you mean '&&'?", "&&"⟩
  | '|' => some ⟨"did you mean '||'?", "||"⟩
  | '!' => some ⟨"did you mean '!='?", "!="⟩
  | '.' => some
      { message := "real literals need digits on both sides of the point, as in 0.5 or 3.0" }
  | '"' => some { message := "this string literal is never closed; add a closing '\"'" }
  | '\'' => some { message := "string literals use double quotes" }
  | '_' => some { message := "identifiers must start with a letter" }
  | _ => none

/-- The diagnostic of a character that no rule accepts. -/
def illegalCharacter (character : Char) (position : Position) : Diagnostic where
  level := .error
  code := ErrorCode.illegalCharacter
  message := "illegal character " ++ quotedCharacter character
  position := position
  length := 1
  suggestions := (suggestion? character).toList
  help := if character = '\r' then "convert the file to LF line endings" else ""

/-- The diagnostic of a numeral without a value. -/
def malformedNumber (lexeme : Text) (kind : Kind) (position : Position)
    (cause : Option LiteralError) : Diagnostic where
  level := .error
  code := ErrorCode.malformedNumber
  message := "malformed number " ++ lexeme.quoted
  position := position
  length := lexeme.length
  notes :=
    if cause.any LiteralError.isOutOfRange then
      if kind = .operand .integer then ["integer literals must fit in a signed 64-bit value"]
      else ["real literal is out of range"]
    else []

/-- The diagnostic of a keyword table that cannot be loaded from a path. -/
def keywordTable (path message : Text) : Diagnostic where
  level := .error
  code := ErrorCode.keywordTable
  message := message
  help := "check " ++ path ++ " against the `keywords: \x7bspelling: KIND\x7d` format"

/-- The diagnostic of a scan error, if it is lexical. -/
def ofScanError? : ScanError → Option Diagnostic
  | .illegalCharacter character _ position => some (illegalCharacter character position)
  | .malformedNumber lexeme kind _ position cause =>
    some (malformedNumber lexeme kind position cause)
  | _ => none

/-- The diagnostic of a failure, if it comes down to a lexical error. -/
def ofFailure? (failure : Failure) : Option Diagnostic :=
  failure.scanError?.bind ofScanError?

end Diagnostic

end Aml
