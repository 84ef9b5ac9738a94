import Aml.Yaml.Cursor

/-!
# White space inside scalars

A gap is white space between two parts of a scalar that is not written as a block. Blanks on one
line stand for themselves. A line break folds: a single one becomes a space, several become one
less, and the blanks around them are dropped. The two line separators are kept.
-/
namespace Aml.Yaml

/-- White space between two parts of a scalar. -/
structure Gap where
  /-- The blanks before the first line break, latest first. -/
  blanks : List Char := []
  /-- The line breaks, latest first. -/
  breaks : List Char := []
  /-- Whether an escaped line break precedes the gap. -/
  escaped : Bool := false
  /-- Whether a tab stands in the indentation of a line. -/
  tabbed : Bool := false
  deriving DecidableEq

namespace Gap

/-- Whether the gap has a line break. -/
def isBroken (gap : Gap) : Bool :=
  !gap.breaks.isEmpty

/-- Adds a blank at a column; lines must be indented by `indent` columns without tabs. -/
def addBlank (gap : Gap) (indent column : Nat) (blank : Char) : Gap :=
  if gap.escaped || gap.isBroken then
    { gap with tabbed := gap.tabbed || column < indent && blank = '\t' }
  else { gap with blanks := blank :: gap.blanks }

/-- Adds a line break. -/
def addBreak (gap : Gap) (character : Char) : Gap :=
  { gap with breaks := character :: gap.breaks }

/-- What the gap stands for. -/
def fold (gap : Gap) : List Char :=
  if gap.escaped then gap.breaks.reverse
  else
    match gap.breaks.reverse with
    | [] => gap.blanks.reverse
    | first :: others =>
      if first ≠ '\n' then first :: others
      else if others.isEmpty then [' '] else others

/-- Reads the white space from a place on. -/
def read (indent : Nat) : (gap : Gap) → List Char → Mark → Gap × Cursor
  | gap, [], mark => (gap, ⟨[], mark⟩)
  | gap, first :: rest, mark =>
    if isBreak first then read indent (gap.addBreak first) rest mark.down
    else if isBlank first then
      read indent (gap.addBlank indent mark.column first) rest (mark.right 1)
    else (gap, ⟨first :: rest, mark⟩)

end Gap

end Aml.Yaml
