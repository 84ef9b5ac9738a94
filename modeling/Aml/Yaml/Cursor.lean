/-!
# Places in a YAML source

A cursor is a place in a source: the characters from there on and a mark that counts lines,
columns and characters before it, each from 0.
-/
namespace Aml.Yaml

/-- Whether a character is a space or a tab. -/
def isBlank (character : Char) : Bool :=
  character = ' ' || character = '\t'

/-- Whether a character breaks lines. -/
def isBreak (character : Char) : Bool :=
  character = '\n' || character = Char.ofNat 0x2028 || character = Char.ofNat 0x2029

/-- Whether a character is white space. -/
def isSpace (character : Char) : Bool :=
  isBlank character || isBreak character

/-- Whether a character may stand in the name of an anchor, a directive or a tag handle. -/
def isWord (character : Char) : Bool :=
  character.isAlphanum || character = '_' || character = '-'

/-- Whether the characters start with the given one. -/
def startsWith (character : Char) : List Char → Bool
  | [] => false
  | first :: _ => first = character

/-- Whether the characters start with white space or are at their end. -/
def atSpace : List Char → Bool
  | [] => true
  | first :: _ => isSpace first

/-- Whether the characters start with a line break or are at their end. -/
def atBreak : List Char → Bool
  | [] => true
  | first :: _ => isBreak first

/-- Whether the characters start with a marker between documents, three equal characters followed
by white space. -/
def atMarker (character : Char) : List Char → Bool
  | first :: second :: third :: rest =>
    first = character && second = character && third = character && atSpace rest
  | _ => false

/-- A count of what precedes a place. -/
structure Mark where
  line : Nat := 0
  column : Nat := 0
  index : Nat := 0
  deriving DecidableEq

namespace Mark

/-- The mark after a number of characters on the same line. -/
def right (mark : Mark) (count : Nat) : Mark :=
  { mark with column := mark.column + count, index := mark.index + count }

/-- The mark after a line break. -/
def down (mark : Mark) : Mark :=
  ⟨mark.line + 1, 0, mark.index + 1⟩

end Mark

/-- A place in a source. -/
structure Cursor where
  /-- The characters from the place on. -/
  rest : List Char
  mark : Mark := {}
  deriving DecidableEq

namespace Cursor

/-- The place a number of characters further on the same line. -/
def skip (cursor : Cursor) (count : Nat) : Cursor :=
  ⟨cursor.rest.drop count, cursor.mark.right count⟩

/-- The place on the same line from which the given characters remain. -/
def leaving (cursor : Cursor) (rest : List Char) : Cursor :=
  ⟨rest, cursor.mark.right (cursor.rest.length - rest.length)⟩

/-- The place after the characters that satisfy a condition, which none that breaks lines does. -/
def skipWhile (cursor : Cursor) (condition : Char → Bool) : Cursor :=
  cursor.leaving (cursor.rest.dropWhile condition)

/-- The place after the blanks. -/
def skipBlanks (cursor : Cursor) : Cursor :=
  cursor.skipWhile isBlank

/-- The place at the end of the line. -/
def skipLine (cursor : Cursor) : Cursor :=
  cursor.skipWhile fun character => !isBreak character

/-- The place after a line break, if there is one. -/
def skipBreak (cursor : Cursor) : Cursor :=
  match cursor.rest with
  | first :: rest => if isBreak first then ⟨rest, cursor.mark.down⟩ else cursor
  | [] => cursor

/-- Whether a line starts here with a marker between documents. -/
def atDocumentMarker (cursor : Cursor) : Bool :=
  cursor.mark.column = 0 && (atMarker '-' cursor.rest || atMarker '.' cursor.rest)

/-- The place after the blanks and the comment at the end of a line, which must follow. -/
def skipLineEnd? (cursor : Cursor) : Option Cursor :=
  let cursor := cursor.skipBlanks
  let cursor := if startsWith '#' cursor.rest then cursor.skipLine else cursor
  if atBreak cursor.rest then some cursor.skipBreak else none

end Cursor

end Aml.Yaml
