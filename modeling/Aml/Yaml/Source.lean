import Aml.Text.Character

/-!
# YAML sources

A YAML source is a text in UTF-8, or in UTF-16 when it starts with the byte order mark of that
encoding. It consists of printable characters and white space, and a byte order mark may stand at
its start only. Carriage returns and next-line characters are read as newlines, so three
characters remain that break lines.
-/
namespace Aml.Yaml

/-- The byte order mark. -/
def orderMark : Char := Char.ofNat 0xFEFF

/-- Whether a character may stand in a source. -/
def isAllowed (character : Char) : Bool :=
  let scalar := character.toNat
  scalar = 0x09 || scalar = 0x0A || scalar = 0x0D || 0x20 ≤ scalar && scalar ≤ 0x7E
    || scalar = 0x85 || 0xA0 ≤ scalar && scalar ≤ 0xFFFD && character ≠ orderMark
    || 0x10000 ≤ scalar

/-- The sixteen-bit units of a text, whose bytes come low first when `lowFirst` is set. -/
def units? (lowFirst : Bool) : Text → Option (List Nat)
  | [] => some []
  | [_] => none
  | first :: second :: rest =>
    let unit := if lowFirst then second.toNat * 256 + first.toNat
      else first.toNat * 256 + second.toNat
    (units? lowFirst rest).map (unit :: ·)

/-- The characters of sixteen-bit units, unless a unit of a pair stands alone. -/
def ofUnits? : List Nat → Option (List Char)
  | [] => some []
  | unit :: rest =>
    if unit < 0xD800 ∨ 0xE000 ≤ unit then (ofUnits? rest).map (Char.ofNat unit :: ·)
    else
      match rest with
      | low :: rest =>
        if unit < 0xDC00 ∧ 0xDC00 ≤ low ∧ low < 0xE000 then
          (ofUnits? rest).map
            (Char.ofNat (0x10000 + (unit - 0xD800) * 0x400 + (low - 0xDC00)) :: ·)
        else none
      | [] => none

/-- The characters of a text in UTF-8, unless a byte starts none. -/
def ofUtf8? (text : Text) : Option (List Char) :=
  if text.isUtf8 then some (text.characters.map Character.scalar) else none

/-- The characters of a text after its byte order mark. -/
def decode? : Text → Option (List Char)
  | 0xFF :: 0xFE :: rest => (units? true rest).bind ofUnits?
  | 0xFE :: 0xFF :: rest => (units? false rest).bind ofUnits?
  | 0xEF :: 0xBB :: 0xBF :: rest => ofUtf8? rest
  | text => ofUtf8? text

/-- Characters with every line break but the two separators read as a newline. -/
def withNewlines : List Char → List Char
  | [] => []
  | '\r' :: '\n' :: rest => '\n' :: withNewlines rest
  | character :: rest =>
    (if character = '\r' ∨ character = Char.ofNat 0x85 then '\n' else character)
      :: withNewlines rest

/-- The characters of a source, unless one of them may not stand there. -/
def source? (text : Text) : Option (List Char) := do
  let characters ← decode? text
  if characters.all isAllowed then some (withNewlines characters) else none

end Aml.Yaml
