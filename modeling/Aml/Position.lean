import Aml.Text.Character

/-!
# Positions

A position names a place of a source text three ways: a line and a column, both counted from 1,
and a byte offset counted from 0. A column counts characters. Reading a text from a position
moves it past every byte of the text.
-/
namespace Aml

/-- A place in a source text. -/
structure Position where
  /-- The line, from 1. -/
  line : Int := 0
  /-- The column in characters, from 1. -/
  column : Int := 0
  /-- The offset in bytes, from 0. -/
  offset : Int := 0
  deriving DecidableEq

namespace Position

/-- The place before the first byte of a text. -/
def start : Position := ⟨1, 1, 0⟩

/-- The place after a text read from a position: a newline starts a new line at column 1. -/
def advance (position : Position) (text : Text) : Position where
  line := position.line + text.newlines
  column :=
    if text.newlines = 0 then position.column + text.width else 1 + text.lastLine.width
  offset := position.offset + text.length

/-- The line and the column with a colon between them. -/
def render (position : Position) : Text :=
  Text.ofInt position.line ++ ":" ++ Text.ofInt position.column

end Position

end Aml
