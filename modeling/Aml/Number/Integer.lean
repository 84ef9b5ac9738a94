import Aml.Text.Basic

/-!
# Reading integers

An integer is an optional sign and digits, and must fit in 64 bits with sign. The digits are
read from left to right, and reading stops at the first fault: a byte that is no digit of the
base, or a digit that takes the magnitude past 64 bits. In a numeral that chooses its own base,
`0x`, `0o`, `0b` and a leading `0` name the base, and underscores may stand between digits.
-/
namespace Aml

/-- What is wrong with a numeral. -/
inductive NumeralFault where
  /-- The text is not a numeral. -/
  | malformed
  /-- The number is beyond the range of the type. -/
  | outOfRange
  deriving DecidableEq

namespace Numeral

/-- The byte of an ASCII letter in lower case; other bytes may change too, but not into letters. -/
def lower (byte : UInt8) : UInt8 :=
  byte ||| 32

/-- Whether a byte is a decimal digit. -/
def isDigit (byte : UInt8) : Bool :=
  48 ≤ byte && byte ≤ 57

/-- Whether a byte is a hexadecimal digit above 9, in either case. -/
def isHexLetter (byte : UInt8) : Bool :=
  97 ≤ lower byte && lower byte ≤ 102

/-- The value of a byte as a digit of a base up to 36. -/
def digit? (byte : UInt8) : Option Nat :=
  if isDigit byte then some (byte.toNat - 48)
  else if 97 ≤ lower byte ∧ lower byte ≤ 122 then some ((lower byte).toNat - 87)
  else none

/-- The byte that may separate digits. -/
def underscore : UInt8 := 95

/-- Splits an optional sign off a numeral and says whether it is a minus sign. -/
def splitSign : Text → Bool × Text
  | 43 :: rest => (false, rest)
  | 45 :: rest => (true, rest)
  | text => (false, text)

/-- The last thing seen while checking where underscores stand. -/
inductive Seen where
  | start
  | digit
  | underscore
  | other
  deriving DecidableEq

/-- Whether every underscore stands between two digits, after what was seen last. -/
def separatorsSoundAfter (hexadecimal : Bool) : Seen → Text → Bool
  | seen, [] => seen ≠ .underscore
  | seen, byte :: rest =>
    if isDigit byte || hexadecimal && isHexLetter byte then
      separatorsSoundAfter hexadecimal .digit rest
    else if byte = underscore then
      seen = .digit && separatorsSoundAfter hexadecimal .underscore rest
    else seen ≠ .underscore && separatorsSoundAfter hexadecimal .other rest

/-- Whether every underscore of a numeral stands between two digits, where the prefix that
names a base counts as a digit. -/
def separatorsSound (text : Text) : Bool :=
  match (splitSign text).2 with
  | 48 :: letter :: rest =>
    if lower letter = 120 then separatorsSoundAfter true .digit rest
    else if lower letter = 98 ∨ lower letter = 111 then separatorsSoundAfter false .digit rest
    else separatorsSoundAfter false .start (48 :: letter :: rest)
  | digits => separatorsSoundAfter false .start digits

/-- Reads digits of a base into a magnitude below 2 ^ 64, skipping underscores when allowed. -/
def magnitude (base : Nat) (separators : Bool) : Text → (value : Nat) → Except NumeralFault Nat
  | [], value => .ok value
  | byte :: rest, value =>
    if separators && byte = underscore then magnitude base separators rest value
    else
      match digit? byte with
      | some digit =>
        if digit < base then
          let next := value * base + digit
          if next < Nat.pow 2 64 then magnitude base separators rest next else .error .outOfRange
        else .error .malformed
      | none => .error .malformed

/-- Gives a magnitude its sign when the result fits in 64 bits with sign. -/
def signed (negative : Bool) (magnitude : Nat) : Except NumeralFault Int :=
  if negative then
    if magnitude ≤ Nat.pow 2 63 then .ok (-(magnitude : Int)) else .error .outOfRange
  else if magnitude < Nat.pow 2 63 then .ok magnitude else .error .outOfRange

/-- Reads a decimal integer. -/
def decimal (text : Text) : Except NumeralFault Int :=
  match splitSign text with
  | (_, []) => .error .malformed
  | (negative, digits) =>
    match magnitude 10 false digits 0 with
    | .ok value => signed negative value
    | .error fault => .error fault

/-- Splits the prefix that names a base off an unsigned numeral. -/
def splitBase : Text → Nat × Text
  | 48 :: letter :: digit :: rest =>
    if lower letter = 98 then (2, digit :: rest)
    else if lower letter = 111 then (8, digit :: rest)
    else if lower letter = 120 then (16, digit :: rest)
    else (8, letter :: digit :: rest)
  | 48 :: rest => (8, rest)
  | digits => (10, digits)

/-- Reads an integer that names its own base. -/
def prefixed (text : Text) : Except NumeralFault Int :=
  match splitSign text with
  | (_, []) => .error .malformed
  | (negative, digits) =>
    let (base, rest) := splitBase digits
    match magnitude base true rest 0 with
    | .ok value =>
      if digits.contains underscore && !separatorsSound digits then .error .malformed
      else signed negative value
    | .error fault => .error fault

end Numeral

end Aml
