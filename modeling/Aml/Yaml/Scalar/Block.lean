import Aml.Yaml.Cursor

/-!
# Block scalars

A block scalar is written as indented lines. A literal scalar keeps its line breaks; a folded one
joins lines that do not start with a blank by a space, or by the empty lines between them. The
header may set the indentation, which is otherwise that of the first line with text, and how many
of the line breaks at the end are kept: one, none or all.
-/
namespace Aml.Yaml

namespace Block

/-- Which line breaks at the end of a block scalar are kept. -/
inductive Chomping where
  | clip
  | strip
  | keep
  deriving DecidableEq

/-- The indicators after the one that starts a block scalar. -/
structure Header where
  chomping : Chomping := .clip
  /-- The indentation below the surrounding one, or 0 when the lines show it. -/
  indent : Nat := 0

/-- The chomping that a character indicates. -/
def chomping? : Char → Option Chomping
  | '+' => some .keep
  | '-' => some .strip
  | _ => none

/-- The indentation that a character indicates. -/
def indent? (character : Char) : Option Nat :=
  if '1' ≤ character ∧ character ≤ '9' then some (character.toNat - 48) else none

/-- Reads the indicators of a header, each at most once, with their number. -/
def header : List Char → Header × Nat
  | [] => ({}, 0)
  | first :: rest =>
    let second := rest.head?
    match chomping? first, indent? first with
    | some chomping, _ =>
      match second.bind indent? with
      | some indent => (⟨chomping, indent⟩, 2)
      | none => (⟨chomping, 0⟩, 1)
    | none, some indent =>
      match second.bind chomping? with
      | some chomping => (⟨chomping, indent⟩, 2)
      | none => (⟨.clip, indent⟩, 1)
    | none, none => ({}, 0)

/-- Empty lines and indentation before a line with text. -/
structure Margin where
  /-- The line breaks. -/
  breaks : List Char
  /-- The greatest width of spaces at the start of a line. -/
  width : Nat
  cursor : Cursor

/-- Reads empty lines and indentation up to `indent` columns, or any number of columns when that
is 0. The line breaks so far are latest first. A tab may not stand in the indentation. -/
def margin (indent : Nat) : List Char → Mark → (width : Nat) → (breaks : List Char) →
    Option Margin
  | [], mark, width, breaks => some ⟨breaks.reverse, max width mark.column, ⟨[], mark⟩⟩
  | first :: rest, mark, width, breaks =>
    let inside := indent = 0 || mark.column < indent
    if inside && first = ' ' then margin indent rest (mark.right 1) width breaks
    else if inside && first = '\t' then none
    else if isBreak first then
      margin indent rest mark.down (max width mark.column) (first :: breaks)
    else some ⟨breaks.reverse, max width mark.column, ⟨first :: rest, mark⟩⟩

/-- Lines that have been read. -/
structure Lines where
  value : List Char := []
  /-- The break of the last line. -/
  lastBreak : List Char := []
  /-- The line breaks after it. -/
  breaks : List Char := []
  /-- Whether the last line starts with a blank. -/
  afterBlank : Bool := false

/-- What joins a line to the lines before it. -/
def joint (folds : Bool) (lines : Lines) (startsBlank : Bool) : List Char :=
  if folds && !lines.afterBlank && !startsBlank && lines.lastBreak = ['\n'] then
    if lines.breaks.isEmpty then [' '] else lines.breaks
  else lines.lastBreak ++ lines.breaks

/-- Reads the lines of a block scalar; `fuel` bounds their number. -/
def readLines (folds : Bool) (indent : Nat) : (fuel : Nat) → Lines → Cursor →
    Option (Lines × Cursor)
  | 0, lines, cursor => some (lines, cursor)
  | fuel + 1, lines, cursor =>
    if cursor.mark.column ≠ indent || cursor.rest.isEmpty then some (lines, cursor)
    else
      let startsBlank := cursor.rest.head?.any isBlank
      let line := cursor.rest.takeWhile fun character => !isBreak character
      let after := cursor.skip line.length
      let next := after.skipBreak
      match margin indent next.rest next.mark 0 [] with
      | none => none
      | some margin =>
        readLines folds indent fuel
          { value := lines.value ++ joint folds lines startsBlank ++ line
            lastBreak := after.rest.take 1
            breaks := margin.breaks
            afterBlank := startsBlank }
          margin.cursor

/-- The text of the lines with the line breaks at their end that are kept. -/
def chomped (chomping : Chomping) (lines : Lines) : List Char :=
  match chomping with
  | .strip => lines.value
  | .clip => lines.value ++ lines.lastBreak
  | .keep => lines.value ++ lines.lastBreak ++ lines.breaks

/-- Reads a block scalar after its first indicator; `outer` is the surrounding indentation, or
negative when there is none. -/
def read (folds : Bool) (outer : Int) (cursor : Cursor) : Option (List Char × Cursor) := do
  let (header, length) := header cursor.rest
  let cursor ← (cursor.skip length).skipLineEnd?
  let indent := if header.indent = 0 then 0 else (max outer 0).toNat + header.indent
  let margin ← margin indent cursor.rest cursor.mark 0 []
  let indent := if indent = 0 then max margin.width (max (outer + 1) 1).toNat else indent
  let (lines, cursor) ←
    readLines folds indent (cursor.rest.length + 1) { breaks := margin.breaks } margin.cursor
  some (chomped header.chomping lines, cursor)

end Block

end Aml.Yaml
