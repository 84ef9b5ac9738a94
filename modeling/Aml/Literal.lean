import Aml.Number.Real
import Aml.Token

/-!
# Literals

A converter is any function of a lexeme: it gives a value or none, or refuses the lexeme for one of
the causes of `LiteralError`. The language has four: a quoted string loses its quotes and keeps its
escapes as written, a real is the double precision number nearest to its numeral, an integer must
fit in 64 bits, and a name is its own value.
-/
namespace Aml

/-- The two kinds of numerals. -/
inductive NumeralForm where
  | integer
  | real
  deriving DecidableEq

/-- The operation that reads a form of numeral, as messages call it. -/
def NumeralForm.reader : NumeralForm → String
  | .integer => "strconv.ParseInt"
  | .real => "strconv.ParseFloat"

/-- Why a lexeme is refused. -/
inductive LiteralError where
  /-- The lexeme is no numeral of the form, or its number is out of range. -/
  | numeral (form : NumeralForm) (lexeme : Text) (fault : NumeralFault)
  /-- The lexeme is not enclosed in double quotes. -/
  | unquoted (lexeme : Text)
  /-- Any other cause: its message, whether it stands for the end of the input, and whether it
  stands for a number out of range. -/
  | other (message : Text) (endsInput : Bool := false) (outOfRange : Bool := false)
  deriving DecidableEq

namespace LiteralError

/-- The message of a cause. -/
def message : LiteralError → Text
  | .numeral form lexeme fault =>
    let reason : Text := match fault with
      | .malformed => "invalid syntax"
      | .outOfRange => "value out of range"
    form.reader ++ ": parsing " ++ lexeme.quoted ++ ": " ++ reason
  | .unquoted lexeme => "string literal " ++ lexeme.quoted ++ " is not quoted"
  | .other message _ _ => message

/-- Whether the cause is a number beyond the range of its type. -/
def isOutOfRange : LiteralError → Bool
  | .numeral _ _ fault => fault = .outOfRange
  | .unquoted _ => false
  | .other _ _ outOfRange => outOfRange

/-- Whether the cause stands for the end of the input. -/
def endsInput : LiteralError → Bool
  | .other _ endsInput _ => endsInput
  | _ => false

end LiteralError

/-- How a rule computes the value of its lexemes. -/
structure Converter where
  /-- The value of a lexeme, if it has one, or the cause for which it is refused. -/
  convert : Text → Except LiteralError (Option Value)

namespace Converter

/-- The byte that encloses string literals. -/
def quote : UInt8 := 34

/-- Strips the enclosing double quotes and keeps everything between them as written. -/
def unquote (lexeme : Text) : Except LiteralError Text :=
  match lexeme with
  | first :: second :: rest =>
    let last := (second :: rest).getLast (by simp)
    if first = quote ∧ last = quote then .ok (second :: rest).dropLast
    else .error (.unquoted lexeme)
  | _ => .error (.unquoted lexeme)

/-- The contents of a string literal. -/
def string : Converter where
  convert lexeme := (unquote lexeme).map fun contents => some (.string contents)

/-- The double precision number of a numeral. -/
def real : Converter where
  convert lexeme :=
    match Numeral.real lexeme with
    | .ok value => .ok (some (.real value))
    | .error fault => .error (.numeral .real lexeme fault)

/-- The integer of a numeral. -/
def integer : Converter where
  convert lexeme :=
    match Numeral.decimal lexeme with
    | .ok value => .ok (some (.integer value))
    | .error fault => .error (.numeral .integer lexeme fault)

/-- The lexeme itself. -/
def identity : Converter where
  convert lexeme := .ok (some (.string lexeme))

end Converter

end Aml
