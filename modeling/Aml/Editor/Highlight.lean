import Aml.Editor.Position
import Aml.Token

/-!
# Highlighted tokens

An editor highlights the tokens of a document by their types. A token that spans lines cannot be
highlighted and is left out. The tokens are sent as groups of five numbers: the distance in lines
from the token before, the distance in characters on the same line or else the character itself,
the length, the type, and no modifiers.
-/
namespace Aml

/-- The types of highlighted tokens. -/
inductive HighlightType where
  | keyword | operator | number | string | variable
  deriving DecidableEq

namespace HighlightType

/-- The types in the order of their indexes. -/
def legend : List HighlightType :=
  [.keyword, .operator, .number, .string, .variable]

/-- The name of a type in the legend. -/
def name : HighlightType → String
  | .keyword => "keyword"
  | .operator => "operator"
  | .number => "number"
  | .string => "string"
  | .variable => "variable"

/-- The index of a type in the legend. -/
def index : HighlightType → UInt32
  | .keyword => 0
  | .operator => 1
  | .number => 2
  | .string => 3
  | .variable => 4

/-- The type of the tokens of a kind. -/
def ofKind : Kind → HighlightType
  | .reserved _ => .keyword
  | .operator _ => .operator
  | .operand .integer => .number
  | .operand .real => .number
  | .operand .string => .string
  | _ => .variable

end HighlightType

/-- A token as an editor highlights it. -/
structure Highlight where
  position : EditorPosition
  /-- The length in UTF-16 code units. -/
  length : UInt32
  type : HighlightType
  deriving DecidableEq

namespace Highlight

/-- The highlight of a token, unless it spans lines. -/
def ofToken? (source : Text) (token : Token) : Option Highlight :=
  if token.lexeme.contains Text.newline then none
  else some
    { position := .ofOffset source token.position.offset.toNat
      length := token.lexeme.units.toUInt32
      type := .ofKind token.kind }

/-- The highlights of the tokens of a source. -/
def ofTokens (source : Text) (tokens : List Token) : List Highlight :=
  tokens.filterMap (ofToken? source)

/-- The five numbers of a highlight after another position. -/
def group (previous : EditorPosition) (highlight : Highlight) : List UInt32 :=
  let lines := highlight.position.line - previous.line
  let characters :=
    if lines = 0 then highlight.position.character - previous.character
    else highlight.position.character
  [lines, characters, highlight.length, highlight.type.index, 0]

/-- The groups of highlights after a position. -/
def encodeFrom : (previous : EditorPosition) → List Highlight → List UInt32
  | _, [] => []
  | previous, highlight :: rest =>
    highlight.group previous ++ encodeFrom highlight.position rest

/-- The numbers sent for the highlights of a document. -/
def encode (highlights : List Highlight) : List UInt32 :=
  encodeFrom {} highlights

end Highlight

end Aml
