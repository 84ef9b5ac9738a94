import Aml.Text.Character

/-!
# Aligned columns

A text is laid out in columns. Tabs and vertical tabs end cells, newlines and form feeds end
lines, and each cell but the last of its line belongs to a column. A column is a run of
consecutive lines that have a cell there; its cells are padded to the widest of them and two
spaces more. Widths count characters. A form feed also ends all columns. The byte 0xFF opens and
closes text that is kept as it is, in which separators have no effect; it takes no room itself.
-/
namespace Aml.Columns

/-- The text of a cell with its width. -/
structure Cell where
  text : Text
  width : Nat

/-- The spaces between neighbouring columns. -/
def padding : Nat := 2

/-- The byte that opens and closes text kept as it is. -/
def escapeByte : UInt8 := 255

/-- A text being split into cells; everything is kept latest first. -/
structure Splitter where
  /-- The bytes of the current cell. -/
  current : Text := []
  /-- Whether the text is inside escape bytes. -/
  escaped : Bool := false
  /-- The finished cells of the current line. -/
  cells : List Cell := []
  /-- The finished lines of the current block. -/
  lines : List (List Cell) := []
  /-- The finished blocks of lines that share columns. -/
  blocks : List (List (List Cell)) := []

/-- The parts of a text before, between and after its escape bytes. -/
def segments (text : Text) : List Text :=
  text.splitOnP (· = escapeByte)

namespace Splitter

/-- The current cell; escape bytes take no room. -/
def cell (splitter : Splitter) : Cell :=
  let text := splitter.current.reverse
  ⟨text, (segments text).foldr (fun segment total => segment.width + total) 0⟩

/-- Ends the current cell. -/
def endCell (splitter : Splitter) : Splitter :=
  { splitter with current := [], cells := splitter.cell :: splitter.cells }

/-- Ends the current line. -/
def endLine (splitter : Splitter) : Splitter :=
  let ended := splitter.endCell
  { ended with cells := [], lines := ended.cells.reverse :: ended.lines }

/-- Ends the lines that share columns. -/
def endBlock (splitter : Splitter) : Splitter :=
  { splitter with lines := [], blocks := splitter.lines.reverse :: splitter.blocks }

/-- Adds a byte to the current cell. -/
def keep (splitter : Splitter) (byte : UInt8) : Splitter :=
  { splitter with current := byte :: splitter.current }

/-- Reads one byte. -/
def step (splitter : Splitter) (byte : UInt8) : Splitter :=
  if byte = escapeByte then { splitter.keep byte with escaped := !splitter.escaped }
  else if splitter.escaped then splitter.keep byte
  else if byte = 9 ∨ byte = 11 then splitter.endCell
  else if byte = 10 then splitter.endLine
  else if byte = 12 then splitter.endLine.endBlock
  else splitter.keep byte

end Splitter

/-- Whether the first cell of a line belongs to a column. -/
def inColumn (line : List Cell) : Bool :=
  1 < line.length

/-- A line without its first cell. -/
def withoutFirst (line : List Cell) : List Cell :=
  line.drop 1

/-- The width of the first cell of a line. -/
def firstWidth : List Cell → Nat
  | [] => 0
  | cell :: _ => cell.width

/-- The first cell of a line padded to a width. -/
def paddedFirst (width : Nat) : List Cell → Text
  | [] => []
  | cell :: _ => cell.text ++ Text.spaces (width - cell.width)

/-- A line without padding. -/
def plainLine (line : List Cell) : Text :=
  line.flatMap Cell.text

/-- Lays out lines column by column; `fuel` bounds the number of columns. -/
def layout : (fuel : Nat) → List (List Cell) → List Text
  | 0, lines => lines.map plainLine
  | fuel + 1, lines =>
    (lines.splitBy fun left right => inColumn left == inColumn right).flatMap fun run =>
      if run.any inColumn then
        let width := run.foldl (fun widest line => max widest (firstWidth line)) 0 + padding
        List.zipWith (fun line rest => paddedFirst width line ++ rest) run
          (layout fuel (run.map withoutFirst))
      else run.map plainLine

/-- The largest number of cells of a line. -/
def depth (lines : List (List Cell)) : Nat :=
  lines.foldl (fun most line => max most line.length) 0

/-- A block of lines laid out and joined, each line ended by a newline. -/
def blockText (lines : List (List Cell)) : Text :=
  (layout (depth lines) lines).flatMap fun line => line ++ [Text.newline]

/-- The lines of the last block; a last line that no newline ends has its last cell closed, unless
that cell is empty. -/
def Splitter.openLines (splitter : Splitter) : List (List Cell) :=
  if !splitter.current.isEmpty then splitter.endLine.lines.reverse
  else if splitter.cells.isEmpty then splitter.lines.reverse
  else (splitter.cells.reverse :: splitter.lines).reverse

/-- The text laid out in columns. -/
def align (text : Text) : Text :=
  let splitter := text.foldl Splitter.step {}
  let last := blockText splitter.openLines
  splitter.blocks.reverse.flatMap blockText
    ++ if splitter.current.isEmpty && splitter.cells.isEmpty then last else last.dropLast

end Aml.Columns
