import Aml.Text.Basic

/-!
# Characters of a text

A text is read as a sequence of characters: each well-formed UTF-8 sequence is one character,
and each byte that starts none is one character too, read as the replacement character
U+FFFD. Every byte belongs to exactly one character, so the bytes of the characters
concatenate back to the text.
-/
namespace Aml

/-- A character of a text together with the bytes that spell it. -/
structure Character where
  /-- The scalar value, U+FFFD for a byte that starts no character. -/
  scalar : Char
  /-- The bytes that spell the character. -/
  bytes : Text
  deriving DecidableEq

/-- The scalar value that stands for a byte outside every character. -/
def Character.replacement : Char := Char.ofNat 0xFFFD

/-- Whether the character stands for a byte that starts no well-formed sequence. -/
def Character.isMalformed (character : Character) : Bool :=
  character.scalar == Character.replacement && character.bytes.length == 1

namespace Text

/-- Whether a byte continues a sequence of several bytes. -/
def isContinuation (byte : UInt8) : Bool :=
  0x80 ≤ byte && byte < 0xC0

/-- The six payload bits of a continuation byte. -/
def payload (byte : UInt8) : Nat :=
  byte.toNat % 64

/-- Reads the well-formed character at the front of a text, with its width in bytes. -/
def first? : Text → Option (Char × Nat)
  | [] => none
  | byte :: rest =>
    let lead := byte.toNat
    if lead < 0x80 then some (Char.ofNat lead, 1)
    else if lead < 0xC2 then none
    else if lead < 0xE0 then
      match rest with
      | second :: _ =>
        if isContinuation second then some (Char.ofNat ((lead - 0xC0) * 64 + payload second), 2)
        else none
      | _ => none
    else if lead < 0xF0 then
      match rest with
      | second :: third :: _ =>
        let scalar := (lead - 0xE0) * 4096 + payload second * 64 + payload third
        if isContinuation second && isContinuation third && 0x800 ≤ scalar
            && !(0xD800 ≤ scalar && scalar < 0xE000) then some (Char.ofNat scalar, 3)
        else none
      | _ => none
    else if lead < 0xF5 then
      match rest with
      | second :: third :: fourth :: _ =>
        let scalar := (lead - 0xF0) * 262144 + payload second * 4096 + payload third * 64
          + payload fourth
        if isContinuation second && isContinuation third && isContinuation fourth
            && 0x10000 ≤ scalar && scalar < 0x110000 then some (Char.ofNat scalar, 4)
        else none
      | _ => none
    else none

/-- The character at the front of a non-empty text. -/
def firstCharacter (byte : UInt8) (rest : Text) : Character :=
  match first? (byte :: rest) with
  | some (scalar, width) => ⟨scalar, (byte :: rest).take width⟩
  | none => ⟨Character.replacement, [byte]⟩

/-- Collects characters, skipping the bytes of the character read last. -/
def charactersLoop : (skip : Nat) → Text → (done : List Character) → List Character
  | _, [], done => done.reverse
  | skip + 1, _ :: rest, done => charactersLoop skip rest done
  | 0, byte :: rest, done =>
    let character := firstCharacter byte rest
    charactersLoop (character.bytes.length - 1) rest (character :: done)

/-- The characters of a text in order. -/
def characters (text : Text) : List Character :=
  charactersLoop 0 text []

/-- The bytes of a sequence of characters. -/
def ofCharacters (characters : List Character) : Text :=
  characters.flatMap Character.bytes

/-- The number of characters of a text. -/
def width (text : Text) : Nat :=
  text.characters.length

/-- Whether every byte belongs to a well-formed UTF-8 sequence. -/
def isUtf8 (text : Text) : Bool :=
  text.characters.all fun character => !character.isMalformed

/-- The text from the first byte that starts no well-formed sequence, if there is one. -/
def malformedSuffix? (text : Text) : Option Text :=
  let sound := text.characters.takeWhile fun character => !character.isMalformed
  match text.drop (ofCharacters sound).length with
  | [] => none
  | suffix => some suffix

end Text

/-- The number of UTF-16 code units of a character. -/
def Character.units (character : Character) : Nat :=
  if character.scalar.toNat < 0x10000 then 1 else 2

/-- The number of UTF-16 code units of a text. -/
def Text.units (text : Text) : Nat :=
  text.characters.foldr (fun character total => character.units + total) 0

end Aml
