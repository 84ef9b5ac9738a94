import Aml.Number.Fixed

/-!
# Elapsed times

An elapsed time is a number of nanoseconds and is shown in the largest unit of which it holds at
least one: seconds with two places, milliseconds and microseconds with one, or nanoseconds as an
integer. Fractions pass through double precision arithmetic before they are rounded to their
places.
-/
namespace Aml.Duration

/-- The double precision quotient of two natural numbers. -/
def quotient (numerator denominator : Nat) : Binary64 :=
  (Binary64.nearest? false numerator denominator).getD (.infinite false)

/-- The double precision sum of a whole number and a non-negative number. -/
def wholePlus (whole : Nat) (number : Binary64) : Binary64 :=
  let (numerator, denominator) := number.fraction
  quotient (whole * denominator + numerator) denominator

/-- The text of an elapsed time in nanoseconds. -/
def render (nanoseconds : Int) : Text :=
  let count := nanoseconds.toNat
  if 1000000000 ≤ nanoseconds then
    let seconds := wholePlus (count / 1000000000) (quotient (count % 1000000000) 1000000000)
    seconds.fixed 2 ++ "s"
  else if 1000000 ≤ nanoseconds then (quotient count 1000000).fixed 1 ++ "ms"
  else if 1000 ≤ nanoseconds then (quotient count 1000).fixed 1 ++ "μs"
  else Text.ofInt nanoseconds ++ "ns"

end Aml.Duration
