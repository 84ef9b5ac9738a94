/-!
# Double precision numbers

A finite double precision number is a signed significand of at most 53 bits times a power of
two whose exponent is at least -1074. `Binary64.nearest` takes an exact fraction to the number
next to it, a tie going to the even significand; a fraction too large for the format has none.
All arithmetic is exact on natural numbers, and the bit pattern is read off the result.
-/
namespace Aml

/-- The quotient rounded to the nearest natural number, a tie going to the even one. -/
def roundedQuotient (numerator denominator : Nat) : Nat :=
  let quotient := numerator / denominator
  let remainder := numerator % denominator
  if denominator < 2 * remainder then quotient + 1
  else if 2 * remainder = denominator ∧ quotient % 2 = 1 then quotient + 1
  else quotient

/-- A fraction divided by a power of a base, as a fraction. -/
def scaledDown (base : Nat) (numerator denominator : Nat) : (exponent : Int) → Nat × Nat
  | .ofNat exponent => (numerator, denominator * Nat.pow base exponent)
  | .negSucc exponent => (numerator * Nat.pow base (exponent + 1), denominator)

/-- A double precision number. -/
inductive Binary64 where
  /-- The significand times two to the exponent, negated when `negative` is set. -/
  | finite (negative : Bool) (significand : Nat) (exponent : Int)
  | infinite (negative : Bool)
  | nan
  deriving DecidableEq

namespace Binary64

/-- The smallest exponent of a finite number. -/
def leastExponent : Int := -1074

/-- The largest exponent of a finite number. -/
def greatestExponent : Int := 971

/-- The zero of either sign. -/
def zero (negative : Bool) : Binary64 :=
  .finite negative 0 leastExponent

/-- The exponent at which a positive fraction has a significand of 53 bits, or the smallest
exponent when that is larger. -/
def exponentOf (numerator denominator : Nat) : Int :=
  let estimate := (numerator.log2 : Int) - denominator.log2
  let (scaled, unit) := scaledDown 2 numerator denominator estimate
  let magnitude := if unit ≤ scaled then estimate else estimate - 1
  max leastExponent (magnitude - 52)

/-- The number nearest to a fraction, a tie going to the even significand, unless the fraction
rounds past the largest finite number. -/
def nearest? (negative : Bool) (numerator denominator : Nat) : Option Binary64 :=
  if numerator = 0 then some (zero negative)
  else
    let exponent := exponentOf numerator denominator
    let (scaled, unit) := scaledDown 2 numerator denominator exponent
    let rounded := roundedQuotient scaled unit
    let (significand, exponent) :=
      if rounded = Nat.pow 2 53 then (Nat.pow 2 52, exponent + 1) else (rounded, exponent)
    if greatestExponent < exponent then none else some (.finite negative significand exponent)

/-- The magnitude of a finite number as a fraction, and 0 for the others. -/
def fraction : Binary64 → Nat × Nat
  | .finite _ significand exponent => scaledDown 2 significand 1 (-exponent)
  | _ => (0, 1)

/-- The bit pattern of a number: sign, eleven bits of biased exponent, 52 bits of significand. -/
def bits : Binary64 → UInt64
  | .finite negative significand exponent =>
    let sign := if negative then Nat.pow 2 63 else 0
    let magnitude :=
      if significand < Nat.pow 2 52 then significand
      else (exponent - leastExponent + 1).toNat * Nat.pow 2 52 + (significand - Nat.pow 2 52)
    (sign + magnitude).toUInt64
  | .infinite negative => if negative then 0xFFF0000000000000 else 0x7FF0000000000000
  | .nan => 0x7FF8000000000001

end Binary64

end Aml
