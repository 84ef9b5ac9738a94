import Aml.Literal

/-!
# Failures of a scan

A scan fails with a lexical error, which has a place in the source, or because the value of some
other literal cannot be computed. An error that rests on a cause for the end of the input is taken
for that end by those who collect tokens. A failure may carry the context in which it arose in
front of its message.
-/
namespace Aml

/-- Why a scan fails. -/
inductive ScanError where
  /-- No rule matches at the character. -/
  | illegalCharacter (character : Char) (line : Int) (position : Position)
  /-- A numeral matches its rule and has no value. -/
  | malformedNumber (lexeme : Text) (kind : Kind) (line : Int) (position : Position)
      (cause : Option LiteralError)
  /-- A lexeme of any other kind has no value. -/
  | conversion (line : Int) (rule : Text) (lexeme : Text) (cause : LiteralError)
  /-- A match has a symbol that stands for no rule. -/
  | noRule (line : Int) (symbol : Nat)
  /-- The engine fails without a place in the source. -/
  | unlocated (line : Int) (cause : Text)
  deriving DecidableEq

/-- What messages call the literals of a kind. -/
def Kind.numberNoun : Kind → String
  | .operand .real => "real"
  | .operand .integer => "integer"
  | _ => "numeric"

/-- The message of a scan error. -/
def ScanError.message : ScanError → Text
  | .illegalCharacter character line _ =>
    "line " ++ Text.ofInt line ++ ": illegal character " ++ quotedCharacter character
  | .malformedNumber lexeme kind line _ cause =>
    let reason : Text := match cause with
      | some cause => cause.message
      | none => "<nil>"
    "line " ++ Text.ofInt line ++ ": malformed " ++ kind.numberNoun ++ " literal "
      ++ lexeme.quoted ++ ": " ++ reason
  | .conversion line rule lexeme cause =>
    "line " ++ Text.ofInt line ++ ": " ++ rule ++ " " ++ lexeme.quoted ++ ": " ++ cause.message
  | .noRule line symbol =>
    "line " ++ Text.ofInt line ++ ": no rule for lexer symbol " ++ Text.ofNat symbol
  | .unlocated line cause => "line " ++ Text.ofInt line ++ ": " ++ cause

/-- Whether an error is taken for the end of the input. -/
def ScanError.endsInput : ScanError → Bool
  | .malformedNumber _ _ _ _ cause => cause.any LiteralError.endsInput
  | .conversion _ _ _ cause => cause.endsInput
  | _ => false

/-- Anything a caller reports as failed. -/
inductive Failure where
  | scan (error : ScanError)
  | plain (message : Text)
  /-- A failure with the context in which it arose. -/
  | within (context : Text) (failure : Failure)

namespace Failure

/-- The message of a failure, each context in front of it. -/
def message : Failure → Text
  | .scan error => error.message
  | .plain message => message
  | .within context failure => context ++ ": " ++ failure.message

/-- The scan error that a failure comes down to. -/
def scanError? : Failure → Option ScanError
  | .scan error => some error
  | .plain _ => none
  | .within _ failure => failure.scanError?

/-- The message of what a failure directly rests on. -/
def causeMessage? : Failure → Option Text
  | .scan (.malformedNumber _ _ _ _ cause) => cause.map LiteralError.message
  | .scan (.conversion _ _ _ cause) => some cause.message
  | .scan (.unlocated _ cause) => some cause
  | .scan _ => none
  | .plain _ => none
  | .within _ failure => some failure.message

end Failure

end Aml
