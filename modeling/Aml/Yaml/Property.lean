import Aml.Yaml.Scalar.Quoted
import Aml.Yaml.Token

/-!
# Anchors, tags and directives

An anchor or an alias is a name after its indicator. A tag is a handle with a suffix, or a complete
tag between angle brackets. A directive fills a line and declares the version of the language or
the meaning of a tag handle. Each reader takes the place after the first indicator and returns the
kind of the token with the place after it.
-/
namespace Aml.Yaml

namespace Property

/-- The characters besides white space that may follow the name of an anchor. -/
def nameEnds : List Char :=
  ['?', ':', ',', ']', '}', '%', '@', Char.ofNat 0x60]

/-- The name of an anchor or an alias. -/
def name? (cursor : Cursor) : Option (Text × Cursor) :=
  let name := cursor.rest.takeWhile isWord
  let after := cursor.skip name.length
  let ended := atSpace after.rest || after.rest.head?.any nameEnds.contains
  if name.isEmpty || !ended then none else some (textOf name, after)

/-- Whether a character may stand in a tag, apart from escapes. -/
def isTagCharacter (character : Char) : Bool :=
  isWord character
    || [';', '/', '?', ':', '@', '&', '=', '+', '$', ',', '.', '!', '~', '*', '\'', '(', ')', '[',
      ']'].contains character

/-- The number of bytes of the character that a byte starts. -/
def byteCount? (byte : Nat) : Option Nat :=
  if byte < 0x80 then some 1
  else if byte < 0xC0 then none
  else if byte < 0xE0 then some 2
  else if byte < 0xF0 then some 3
  else if byte < 0xF8 then some 4
  else none

/-- Reads the characters of a tag; `pending` bytes of an escaped character are still to come, and
the bytes so far are latest first. -/
def tagText : List Char → (pending : Nat) → (bytes : Text) → Option (Text × List Char)
  | '%' :: high :: low :: rest, pending, bytes => do
    let byte := (← Quoted.hexDigit? high) * 16 + (← Quoted.hexDigit? low)
    match pending with
    | 0 => tagText rest ((← byteCount? byte) - 1) (byte.toUInt8 :: bytes)
    | pending + 1 =>
      if 0x80 ≤ byte ∧ byte < 0xC0 then tagText rest pending (byte.toUInt8 :: bytes) else none
  | first :: rest, 0, bytes =>
    if isTagCharacter first then tagText rest 0 ((Text.ofChar first).reverse ++ bytes)
    else if first = '%' then none
    else some (bytes.reverse, first :: rest)
  | [], 0, bytes => some (bytes.reverse, [])
  | _, _ + 1, _ => none

/-- The handle of a tag after its first exclamation mark: the letters up to another one, if there
is one. -/
def handle? (cursor : Cursor) : Option (List Char × Cursor) :=
  let word := cursor.rest.takeWhile isWord
  let after := cursor.skip word.length
  if startsWith '!' after.rest then some ('!' :: word ++ ['!'], after.skip 1) else none

/-- The complete tag between angle brackets. -/
def verbatimTag? (cursor : Cursor) : Option (TokenKind × Cursor) := do
  let (suffix, rest) ← tagText cursor.rest 0 []
  if suffix.isEmpty || !startsWith '>' rest then none
  else some (.tag [] suffix, (cursor.leaving rest).skip 1)

/-- The tag with a handle, or the local tag without one. -/
def shorthandTag? (cursor : Cursor) : Option (TokenKind × Cursor) :=
  match handle? cursor with
  | some (handle, cursor) => do
    let (suffix, rest) ← tagText cursor.rest 0 []
    if suffix.isEmpty then none else some (.tag (textOf handle) suffix, cursor.leaving rest)
  | none => do
    let (suffix, rest) ← tagText cursor.rest 0 []
    let mark : Text := Text.ofString "!"
    if suffix.isEmpty then some (.tag [] mark, cursor.leaving rest)
    else some (.tag mark suffix, cursor.leaving rest)

/-- The tag after an exclamation mark, which white space must follow. -/
def tag? (cursor : Cursor) : Option (TokenKind × Cursor) := do
  let (kind, cursor) ←
    if startsWith '<' cursor.rest then verbatimTag? (cursor.skip 1) else shorthandTag? cursor
  if atSpace cursor.rest then some (kind, cursor) else none

/-- A number of at most nine digits. -/
def versionNumber? (cursor : Cursor) : Option (Nat × Cursor) :=
  let digits := cursor.rest.takeWhile Char.isDigit
  if digits.isEmpty || 9 < digits.length then none
  else
    some (digits.foldl (fun value digit => value * 10 + (digit.toNat - 48)) 0,
      cursor.skip digits.length)

/-- The version that a directive declares. -/
def version? (cursor : Cursor) : Option (TokenKind × Cursor) := do
  let (major, cursor) ← versionNumber? cursor.skipBlanks
  if startsWith '.' cursor.rest then
    let (minor, cursor) ← versionNumber? (cursor.skip 1)
    some (.version major minor, cursor)
  else none

/-- The tag handle that a directive declares, with what it stands for. -/
def tagDirective? (cursor : Cursor) : Option (TokenKind × Cursor) := do
  let cursor := cursor.skipBlanks
  if !startsWith '!' cursor.rest then none
  else
    let (handle, cursor) ←
      match handle? (cursor.skip 1) with
      | some found => some found
      | none =>
        if (cursor.rest.drop 1).head?.any isWord then none else some (['!'], cursor.skip 1)
    if !cursor.rest.head?.any isBlank then none
    else
      let cursor := cursor.skipBlanks
      let (start, rest) ← tagText cursor.rest 0 []
      if start.isEmpty || !atSpace rest then none
      else some (.tagDirective (textOf handle) start, cursor.leaving rest)

/-- The directive after a percent sign, with the place after its line. -/
def directive? (cursor : Cursor) : Option (TokenKind × Cursor × Cursor) := do
  let name := cursor.rest.takeWhile isWord
  let after := cursor.skip name.length
  if !atSpace after.rest then none
  else
    let (kind, stop) ←
      if name = "YAML".toList then version? after
      else if name = "TAG".toList then tagDirective? after
      else none
    let cursor ← stop.skipLineEnd?
    some (kind, stop, cursor)

end Property

end Aml.Yaml
