import Aml.Text.Character
import Aml.Text.Category

/-!
# Quoted text

Messages show texts and characters between quotes. A printable character stands for itself; the
active quote and the backslash are escaped by a backslash, seven control characters by a letter,
any other character by its code point in hexadecimal, and a byte outside every character by its
value in hexadecimal. Quoting keeps every byte apart, so distinct texts have distinct quotations.
-/
namespace Aml

/-- The letter that names a control character after a backslash. -/
def controlLetter? (character : Char) : Option Char :=
  match character.toNat with
  | 7 => some 'a'
  | 8 => some 'b'
  | 9 => some 't'
  | 10 => some 'n'
  | 11 => some 'v'
  | 12 => some 'f'
  | 13 => some 'r'
  | _ => none

/-- A character as it stands between the given quotes. -/
def escaped (quote character : Char) : Text :=
  let codePoint := character.toNat
  if character = quote ∨ character = '\\' then Text.ofString "\\" ++ Text.ofChar character
  else if isPrintable character then Text.ofChar character
  else
    match controlLetter? character with
    | some letter => Text.ofString "\\" ++ Text.ofChar letter
    | none =>
      if codePoint < 0x80 then Text.ofString "\\x" ++ Text.ofHex 2 codePoint
      else if codePoint < 0x10000 then Text.ofString "\\u" ++ Text.ofHex 4 codePoint
      else Text.ofString "\\U" ++ Text.ofHex 8 codePoint

/-- A character of a text as it stands between double quotes. -/
def Character.escaped (character : Character) : Text :=
  if character.isMalformed then
    Text.ofString "\\x" ++ character.bytes.flatMap fun byte => Text.ofHex 2 byte.toNat
  else Aml.escaped '"' character.scalar

/-- A text between double quotes. -/
def Text.quoted (text : Text) : Text :=
  Text.ofString "\"" ++ text.characters.flatMap Character.escaped ++ Text.ofString "\""

/-- A character between single quotes. -/
def quotedCharacter (character : Char) : Text :=
  Text.ofString "'" ++ escaped '\'' character ++ Text.ofString "'"

end Aml
