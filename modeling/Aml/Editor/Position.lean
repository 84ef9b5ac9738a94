import Aml.Text.Character

/-!
# Editor positions

An editor names a place of a text by a line and a character, both counted from 0; characters are
UTF-16 code units. `EditorPosition.ofOffset` finds the position of a byte offset and
`EditorPosition.indexIn` the offset of a position; on the boundaries of characters the second
undoes the first. A position beyond the lines of a text, or beyond the end of its last line, is
taken for the start of the text; one beyond the end of another line for the end of that line; and
one inside a pair of units for the place before it.
-/
namespace Aml

/-- A place in a text as an editor names it. -/
structure EditorPosition where
  line : UInt32 := 0
  character : UInt32 := 0
  deriving DecidableEq

/-- The part of a text between two places. -/
structure EditorRange where
  start : EditorPosition := {}
  stop : EditorPosition := {}
  deriving DecidableEq

namespace EditorPosition

/-- The position of a byte offset, which is taken for the end of the text when it is beyond it. -/
def ofOffset (text : Text) (offset : Nat) : EditorPosition :=
  let before : Text := text.take offset
  ⟨before.newlines.toUInt32, before.lastLine.units.toUInt32⟩

/-- The offset of the start of a line and the text from there on, `index` bytes having been
read. -/
def lineStart? : Text → (line index : Nat) → Option (Nat × Text)
  | text, 0, index => some (index, text)
  | [], _ + 1, _ => none
  | byte :: rest, line + 1, index =>
    if byte = Text.newline then lineStart? rest line (index + 1)
    else lineStart? rest (line + 1) (index + 1)

/-- The offset a number of code units into a line that starts at `index`. -/
def unitIndex : List Character → (units index : Nat) → Nat
  | _, 0, index => index
  | [], _ + 1, _ => 0
  | character :: rest, units + 1, index =>
    if character.scalar = '\n' then index
    else if character.units = 2 then
      match units with
      | 0 => index
      | units + 1 => unitIndex rest units (index + character.bytes.length)
    else unitIndex rest units (index + character.bytes.length)

/-- The byte offset of a position. -/
def indexIn (position : EditorPosition) (text : Text) : Nat :=
  match lineStart? text position.line.toNat 0 with
  | none => 0
  | some (index, rest) => unitIndex rest.characters position.character.toNat index

end EditorPosition

/-- A text with the part in a range replaced; the ends count separately, whichever comes first. -/
def EditorRange.replace (range : EditorRange) (text replacement : Text) : Text :=
  text.take (range.start.indexIn text) ++ replacement ++ text.drop (range.stop.indexIn text)

end Aml
