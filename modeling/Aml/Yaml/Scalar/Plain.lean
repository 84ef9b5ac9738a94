import Aml.Yaml.Scalar.Gap

/-!
# Plain scalars

A plain scalar is text without quotes. It ends before a colon that white space follows, before a
comment, before a marker between documents, before a line that is indented too little, and inside
brackets before their indicators.
-/
namespace Aml.Yaml

namespace Plain

/-- The characters that end a plain scalar inside brackets. -/
def flowIndicators : List Char :=
  [',', '?', '[', ']', '{', '}']

/-- Whether a plain scalar ends before a character with the given ones after it. -/
def endsAt (flow : Bool) (character : Char) (rest : List Char) : Bool :=
  character = ':' && atSpace rest || flow && flowIndicators.contains character

/-- The characters of a plain scalar up to white space or its end. -/
def run (flow : Bool) : List Char → List Char
  | [] => []
  | first :: rest =>
    if isSpace first || endsAt flow first rest then [] else first :: run flow rest

/-- A plain scalar with the place after it. -/
structure Reading where
  value : List Char
  /-- Whether a line break follows the scalar, before the place. -/
  broken : Bool
  cursor : Cursor

/-- Reads a plain scalar on from a gap after the part that has been read; `fuel` bounds the number
of parts. -/
def readFrom (flow : Bool) (indent : Nat) : (fuel : Nat) → Cursor → Gap → (value : List Char) →
    Option Reading
  | 0, cursor, gap, value => some ⟨value, gap.isBroken, cursor⟩
  | fuel + 1, cursor, gap, value =>
    let part := run flow cursor.rest
    if cursor.atDocumentMarker || startsWith '#' cursor.rest || part.isEmpty then
      some ⟨value, gap.isBroken, cursor⟩
    else
      let value := value ++ gap.fold ++ part
      let cursor := cursor.skip part.length
      let (gap, cursor) := Gap.read indent {} cursor.rest cursor.mark
      if gap.tabbed then none
      else if gap = {} || !flow && cursor.mark.column < indent then
        some ⟨value, gap.isBroken, cursor⟩
      else readFrom flow indent fuel cursor gap value

/-- Reads a plain scalar, whose lines after the first are indented by `indent` columns unless it
stands inside brackets. -/
def read (flow : Bool) (indent : Nat) (cursor : Cursor) : Option Reading :=
  readFrom flow indent (cursor.rest.length + 1) cursor {} []

end Plain

end Aml.Yaml
