import Aml.Number.Binary64
import Aml.Number.Integer

/-!
# Reading real numbers

A real numeral has an optional sign, digits around an optional point and an optional decimal
exponent; after `0x` the digits are hexadecimal and a binary exponent is required. Underscores
may stand between digits. The words for infinity and for the number that is none are read in
any case. The exact value of a numeral is a fraction, and the result is the double precision
number nearest to it. The digits of an exponent stop counting once it has reached ten thousand,
far beyond the range of the format.
-/
namespace Aml.Numeral

/-- The digits of a real numeral: their value as an integer and how many follow the point. -/
structure Digits where
  /-- All digits read as one integer. -/
  value : Nat := 0
  /-- The number of digits after the point. -/
  places : Nat := 0
  /-- Whether the point has been read. -/
  pointed : Bool := false
  /-- Whether any digit has been read. -/
  present : Bool := false

/-- One more digit of a base. -/
def Digits.push (digits : Digits) (base digit : Nat) : Digits where
  value := digits.value * base + digit
  places := if digits.pointed then digits.places + 1 else digits.places
  pointed := digits.pointed
  present := true

/-- Reads the digits of a real numeral and returns the text after them. -/
def digitsOf (base : Nat) : Text → Digits → Digits × Text
  | [], digits => (digits, [])
  | byte :: rest, digits =>
    if byte = underscore then digitsOf base rest digits
    else if byte = 46 then
      if digits.pointed then (digits, byte :: rest)
      else digitsOf base rest { digits with pointed := true }
    else if isDigit byte || base = 16 && isHexLetter byte then
      digitsOf base rest (digits.push base ((digit? byte).getD 0))
    else (digits, byte :: rest)

/-- Reads the digits of an exponent, which stop counting at ten thousand. -/
def exponentDigits : Text → (value : Nat) → Option Nat
  | [], value => some value
  | byte :: rest, value =>
    if byte = underscore then exponentDigits rest value
    else if isDigit byte then
      exponentDigits rest (if value < 10000 then value * 10 + (byte.toNat - 48) else value)
    else none

/-- Reads an exponent up to the end of the text, its letter already taken off. -/
def exponent? (text : Text) : Option Int :=
  let (negative, digits) := splitSign text
  match digits with
  | [] => none
  | first :: _ =>
    if isDigit first then
      (exponentDigits digits 0).map fun value => if negative then -(value : Int) else value
    else none

/-- Whether an unsigned numeral starts with `0x` and goes on after it. -/
def isHexadecimal : Text → Bool
  | 48 :: letter :: _ :: _ => lower letter = 120
  | _ => false

/-- The exact magnitude of an unsigned numeral as a fraction. -/
def magnitude? (text : Text) : Option (Nat × Nat) :=
  let hexadecimal := isHexadecimal text
  let base := if hexadecimal then 16 else 10
  let (digits, rest) := digitsOf base (if hexadecimal then text.drop 2 else text) {}
  if !digits.present then none
  else
    match rest with
    | [] => if hexadecimal then none else some (digits.value, Nat.pow 10 digits.places)
    | letter :: rest =>
      if lower letter = (if hexadecimal then 112 else 101) then
        (exponent? rest).map fun exponent =>
          scaledDown (if hexadecimal then 2 else 10) digits.value (Nat.pow base digits.places)
            (-exponent)
      else none

/-- Reads the word for infinity or, without a sign, for the number that is none. -/
def word? (text : Text) : Option Binary64 :=
  let (negative, letters) := splitSign text
  let letters := letters.map lower
  if letters = "inf" ∨ letters = "infinity" then some (.infinite negative)
  else if text.map lower = "nan" then some .nan
  else none

/-- Reads a real numeral as the double precision number nearest to it. -/
def real (text : Text) : Except NumeralFault Binary64 :=
  match word? text with
  | some number => .ok number
  | none =>
    let (negative, unsigned) := splitSign text
    match magnitude? unsigned with
    | none => .error .malformed
    | some (numerator, denominator) =>
      if text.contains underscore && !separatorsSound text then .error .malformed
      else
        match Binary64.nearest? negative numerator denominator with
        | some number => .ok number
        | none => .error .outOfRange

end Aml.Numeral
