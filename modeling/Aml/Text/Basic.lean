/-!
# Byte texts

Source texts, lexemes, messages and reports are byte strings, because a source file need not
be valid UTF-8 and its bytes reach the output unchanged. A string is used as a text through
its UTF-8 bytes. Lines are separated by the newline byte alone.
-/
namespace Aml

/-- A byte string; nothing requires it to be valid UTF-8. -/
abbrev Text := List UInt8

namespace Text

/-- The UTF-8 bytes of a string. -/
@[coe]
def ofString (string : String) : Text :=
  string.toList.flatMap String.utf8EncodeChar

instance : Coe String Text := ⟨ofString⟩

/-- The UTF-8 bytes of one character. -/
def ofChar (character : Char) : Text :=
  String.utf8EncodeChar character

/-- The byte that separates lines. -/
def newline : UInt8 := 10

/-- The decimal digits of a natural number. -/
def ofNat (value : Nat) : Text :=
  (Nat.toDigits 10 value).flatMap ofChar

/-- The decimal digits of an integer, with a leading minus sign when it is negative. -/
def ofInt : Int → Text
  | .ofNat value => ofNat value
  | .negSucc value => ofString "-" ++ ofNat (value + 1)

/-- One hexadecimal digit in lower case. -/
def hexDigit (value : Nat) : UInt8 :=
  if value < 10 then (48 + value).toUInt8 else (87 + value).toUInt8

/-- The low `width` hexadecimal digits of a number, in lower case. -/
def ofHex : (width : Nat) → (value : Nat) → Text
  | 0, _ => []
  | width + 1, value => hexDigit (value / Nat.pow 16 width % 16) :: ofHex width value

/-- The number of newline bytes. -/
def newlines (text : Text) : Nat :=
  text.count newline

/-- Collects lines, with the current line and the finished lines reversed. -/
def linesLoop : Text → (current : Text) → (done : List Text) → List Text
  | [], current, done => (current.reverse :: done).reverse
  | byte :: rest, current, done =>
    if byte = newline then linesLoop rest [] (current.reverse :: done)
    else linesLoop rest (byte :: current) done

/-- The pieces between newline bytes; a text without one is a single line. -/
def lines (text : Text) : List Text :=
  linesLoop text [] []

/-- The bytes after the last newline byte, or the whole text when there is none. -/
def lastLine (text : Text) : Text :=
  (text.reverse.takeWhile (· ≠ newline)).reverse

/-- `count` copies of one byte. -/
def repeated (byte : UInt8) (count : Nat) : Text :=
  List.replicate count byte

/-- A run of spaces. -/
def spaces (count : Nat) : Text :=
  repeated 32 count

/-- A text padded on the left with spaces to a width in bytes. -/
def padLeft (width : Nat) (text : Text) : Text :=
  spaces (width - text.length) ++ text

/-- Texts joined with a separator between neighbours. -/
def joined (separator : Text) : List Text → Text
  | [] => []
  | [text] => text
  | text :: rest => text ++ separator ++ joined separator rest

/-- Whether the first text comes before the second in byte order. -/
def precedes : Text → Text → Bool
  | [], [] => false
  | [], _ :: _ => true
  | _ :: _, [] => false
  | left :: lefts, right :: rights =>
    if left = right then precedes lefts rights else left < right

end Text

end Aml
