import Aml.Yaml.Scalar.Gap

/-!
# Quoted scalars

Between single quotes every character stands for itself, and a quote is written twice. Between
double quotes a backslash starts an escape: a letter for a control character, two, four or eight
hexadecimal digits for a code point, or a line break that is dropped. White space folds in both.
-/
namespace Aml.Yaml

namespace Quoted

/-- The value of a hexadecimal digit. -/
def hexDigit? (character : Char) : Option Nat :=
  if '0' ≤ character ∧ character ≤ '9' then some (character.toNat - 48)
  else if 'a' ≤ character ∧ character ≤ 'f' then some (character.toNat - 87)
  else if 'A' ≤ character ∧ character ≤ 'F' then some (character.toNat - 55)
  else none

/-- The number that the first `count` characters write in hexadecimal. -/
def hexNumber? : (count : Nat) → List Char → (value : Nat) → Option Nat
  | 0, _, value => some value
  | _ + 1, [], _ => none
  | count + 1, first :: rest, value => do
    let digit ← hexDigit? first
    hexNumber? count rest (value * 16 + digit)

/-- The character with a code point in hexadecimal, with the length of its escape. -/
def codePoint? (count : Nat) (rest : List Char) : Option (Char × Nat) := do
  let value ← hexNumber? count rest 0
  if value.isValidChar then some (Char.ofNat value, count + 1) else none

/-- The character that the characters after a backslash stand for, with their number. -/
def escape? : List Char → Option (Char × Nat)
  | [] => none
  | first :: rest =>
    match first with
    | '0' => some (Char.ofNat 0, 1)
    | 'a' => some (Char.ofNat 7, 1)
    | 'b' => some (Char.ofNat 8, 1)
    | 't' => some ('\t', 1)
    | '\t' => some ('\t', 1)
    | 'n' => some ('\n', 1)
    | 'v' => some (Char.ofNat 11, 1)
    | 'f' => some (Char.ofNat 12, 1)
    | 'r' => some ('\r', 1)
    | 'e' => some (Char.ofNat 27, 1)
    | ' ' => some (' ', 1)
    | '"' => some ('"', 1)
    | '\'' => some ('\'', 1)
    | '\\' => some ('\\', 1)
    | 'N' => some (Char.ofNat 0x85, 1)
    | '_' => some (Char.ofNat 0xA0, 1)
    | 'L' => some (Char.ofNat 0x2028, 1)
    | 'P' => some (Char.ofNat 0x2029, 1)
    | 'x' => codePoint? 2 rest
    | 'u' => codePoint? 4 rest
    | 'U' => codePoint? 8 rest
    | _ => none

/-- A part of a quoted scalar up to white space or the closing quote. -/
structure Part where
  value : List Char
  /-- Whether the part ends with a backslash before a line break. -/
  escaped : Bool
  /-- The characters after the part, from the escaped line break on if there is one. -/
  rest : List Char

/-- Reads a part between single quotes, whose characters so far are latest first. -/
def singlePart : List Char → (value : List Char) → Part
  | [], value => ⟨value.reverse, false, []⟩
  | '\'' :: '\'' :: rest, value => singlePart rest ('\'' :: value)
  | first :: rest, value =>
    if isSpace first || first = '\'' then ⟨value.reverse, false, first :: rest⟩
    else singlePart rest (first :: value)

/-- Reads a part between double quotes, whose characters so far are latest first, after the rest of
an escape. -/
def doublePart : (skip : Nat) → List Char → (value : List Char) → Option Part
  | _, [], value => some ⟨value.reverse, false, []⟩
  | skip + 1, _ :: rest, value => doublePart skip rest value
  | 0, first :: rest, value =>
    if isSpace first || first = '"' then some ⟨value.reverse, false, first :: rest⟩
    else if first ≠ '\\' then doublePart 0 rest (first :: value)
    else if !rest.isEmpty && atBreak rest then some ⟨value.reverse, true, rest⟩
    else
      match escape? rest with
      | some (character, width) => doublePart width rest (character :: value)
      | none => none

/-- Reads a part of a scalar. -/
def part? (double : Bool) (rest : List Char) : Option Part :=
  if double then doublePart 0 rest [] else some (singlePart rest [])

/-- Reads a quoted scalar on from the part that has been read; `fuel` bounds the number of
parts. -/
def readFrom (double : Bool) : (fuel : Nat) → Cursor → (value : List Char) →
    Option (List Char × Cursor)
  | 0, _, _ => none
  | fuel + 1, cursor, value =>
    if cursor.atDocumentMarker || cursor.rest.isEmpty then none
    else
      match part? double cursor.rest with
      | none => none
      | some part =>
        let value := value ++ part.value
        let cursor := cursor.leaving part.rest
        let cursor := if part.escaped then cursor.skipBreak else cursor
        if startsWith (if double then '"' else '\'') cursor.rest then
          some (value, cursor.skip 1)
        else
          let (gap, cursor) :=
            Gap.read 0 { escaped := part.escaped } cursor.rest cursor.mark
          readFrom double fuel cursor (value ++ gap.fold)

/-- Reads a scalar after its opening quote, up to the place after its closing quote. -/
def read (double : Bool) (cursor : Cursor) : Option (List Char × Cursor) :=
  readFrom double (cursor.rest.length + 1) cursor []

end Quoted

end Aml.Yaml
