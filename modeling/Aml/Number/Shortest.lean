import Aml.Number.Binary64
import Aml.Text.Basic

/-!
# Shortest decimal text of a double precision number

Among the decimal numerals that read back as a given number, the text shows one with the
fewest digits, and of those the one nearest to the number. The fractions that read back form an
interval around the number, whose ends belong to it when the significand is even. For each
count of digits the two neighbours of the number on that decimal grid are tested. Exponents
from -4 to 5 are written in plain decimal notation, all others with an exponent of at least two
digits.
-/
namespace Aml

/-- A positive decimal number: an integer times a power of ten. -/
structure Decimal where
  /-- The digits read as one integer. -/
  digits : Nat
  /-- The power of ten of the last digit. -/
  exponent : Int

namespace Decimal

/-- The number of decimal digits of a natural number, at least 1. -/
def length (value : Nat) : Nat :=
  (Nat.toDigits 10 value).length

/-- Drops trailing zeros from the digits, at most `fuel` of them. -/
def trimmed : (fuel : Nat) → Decimal → Decimal
  | 0, decimal => decimal
  | fuel + 1, decimal =>
    if decimal.digits % 10 = 0 ∧ decimal.digits ≠ 0 then
      trimmed fuel ⟨decimal.digits / 10, decimal.exponent + 1⟩
    else decimal

end Decimal

namespace Binary64

/-- The fractions that read back as a number of the given significand and exponent. -/
structure Interval where
  /-- The lower end, as a multiple of the unit. -/
  low : Nat
  /-- The upper end, as a multiple of the unit. -/
  high : Nat
  /-- The number itself, as a multiple of the unit. -/
  middle : Nat
  /-- The power of two that the multiples count. -/
  unit : Int
  /-- Whether the ends belong to the interval. -/
  closed : Bool

/-- The interval of fractions that read back as a positive number. -/
def interval (significand : Nat) (exponent : Int) : Interval where
  low := if significand = Nat.pow 2 52 ∧ leastExponent < exponent then 4 * significand - 1
    else 4 * significand - 2
  high := 4 * significand + 2
  middle := 4 * significand
  unit := exponent - 2
  closed := significand % 2 = 0

/-- Whether a decimal number lies in an interval. -/
def Interval.contains (interval : Interval) (decimal : Decimal) : Bool :=
  let (numerator, denominator) := scaledDown 10 decimal.digits 1 (-decimal.exponent)
  let (numerator, denominator) := scaledDown 2 numerator denominator interval.unit
  if interval.closed then
    interval.low * denominator ≤ numerator && numerator ≤ interval.high * denominator
  else interval.low * denominator < numerator && numerator < interval.high * denominator

/-- The largest power of ten that is at most a positive fraction. -/
def decimalMagnitude (numerator denominator : Nat) : Int :=
  let estimate := (Decimal.length numerator : Int) - Decimal.length denominator
  let (scaled, unit) := scaledDown 10 numerator denominator estimate
  if unit ≤ scaled then estimate else estimate - 1

/-- Searches the grids of `count` and more digits for a number of the interval. -/
def searchShortest (interval : Interval) (numerator denominator : Nat) (magnitude : Int) :
    (fuel count : Nat) → Decimal
  | 0, count =>
    let exponent := magnitude - count + 1
    let (scaled, unit) := scaledDown 10 numerator denominator exponent
    ⟨roundedQuotient scaled unit, exponent⟩
  | fuel + 1, count =>
    let exponent := magnitude - count + 1
    let (scaled, unit) := scaledDown 10 numerator denominator exponent
    let below : Decimal := ⟨scaled / unit, exponent⟩
    let above : Decimal := ⟨scaled / unit + 1, exponent⟩
    match interval.contains below, interval.contains above with
    | true, true => ⟨roundedQuotient scaled unit, exponent⟩
    | true, false => below
    | false, true => above
    | false, false => searchShortest interval numerator denominator magnitude fuel (count + 1)

/-- The shortest decimal number that reads back as a positive number of the given significand
and exponent. -/
def shortest (significand : Nat) (exponent : Int) : Decimal :=
  let (numerator, denominator) := scaledDown 2 significand 1 (-exponent)
  let magnitude := decimalMagnitude numerator denominator
  (searchShortest (interval significand exponent) numerator denominator magnitude 16 1).trimmed 20

end Binary64

namespace Decimal

/-- The digits of a number with a point after the first. -/
def pointed : Text → Text
  | [] => []
  | [digit] => [digit]
  | digit :: rest => digit :: Text.ofString "." ++ rest

/-- The notation with an exponent: sign and at least two digits of the power of the first digit. -/
def scientific (digits : Text) (magnitude : Int) : Text :=
  let sign : Text := if magnitude < 0 then "-" else "+"
  let power := Text.ofNat magnitude.natAbs
  let padding : Text := if power.length < 2 then "0" else ""
  pointed digits ++ "e" ++ sign ++ padding ++ power

/-- The plain decimal notation of digits whose first stands at the given power of ten. -/
def positional (digits : Text) (magnitude : Int) : Text :=
  if magnitude < 0 then
    "0." ++ Text.repeated 48 (-magnitude - 1).toNat ++ digits
  else
    let whole := magnitude.toNat + 1
    if digits.length ≤ whole then digits ++ Text.repeated 48 (whole - digits.length)
    else digits.take whole ++ "." ++ digits.drop whole

/-- A decimal number in plain notation for magnitudes from -4 to 5, else with an exponent. -/
def render (decimal : Decimal) : Text :=
  let digits := Text.ofNat decimal.digits
  let magnitude := decimal.exponent + digits.length - 1
  if magnitude < -4 ∨ 6 ≤ magnitude then scientific digits magnitude
  else positional digits magnitude

end Decimal

/-- The shortest text of a number. -/
def Binary64.render : Binary64 → Text
  | .finite negative significand exponent =>
    let sign : Text := if negative then "-" else ""
    if significand = 0 then sign ++ "0" else sign ++ (shortest significand exponent).render
  | .infinite negative => if negative then "-Inf" else "+Inf"
  | .nan => "NaN"

end Aml
