import Aml.Kind
import Aml.Number.Shortest
import Aml.Position
import Aml.Text.Quote

/-!
# Tokens

A token is a classified lexeme with the value of its literal, if it has one, the logical line on
which the scan met it, and its place in the source. Its text shows the kind, the quoted lexeme
and the value; the quoting makes the kind and the lexeme recoverable from it.
-/
namespace Aml

/-- The value of a literal. -/
inductive Value where
  | string (contents : Text)
  | integer (value : Int)
  | real (value : Binary64)
  /-- Any other value, known by how it is shown. -/
  | other (shown : Text)
  deriving DecidableEq

/-- A value in plain text. -/
def Value.render : Value → Text
  | .string contents => contents
  | .integer value => Text.ofInt value
  | .real value => value.render
  | .other shown => shown

/-- A classified lexeme. -/
structure Token where
  /-- What the lexeme is. -/
  kind : Kind
  /-- The bytes of the source. -/
  lexeme : Text
  /-- The converted literal; reserved words and operators have none. -/
  value : Option Value
  /-- The logical line, which counts only the newlines of line-counting rules. -/
  line : Int
  /-- The place of the first byte. -/
  position : Position
  deriving DecidableEq

/-- The kind with the quoted lexeme and the value, if there is one, in parentheses. -/
def Token.render (token : Token) : Text :=
  let value := match token.value with
    | some value => ", " ++ value.render
    | none => []
  token.kind.name ++ "(" ++ token.lexeme.quoted ++ value ++ ")"

end Aml
