import Aml.Number.Binary64
import Aml.Text.Basic

/-!
# Decimal text with a fixed number of places

The exact value of a fraction is rounded to the given number of places after the point, a tie
going to the even digit.
-/
namespace Aml

/-- A non-negative fraction with a fixed number of places after the point. -/
def fixedPoint (places numerator denominator : Nat) : Text :=
  let scaled := roundedQuotient (numerator * Nat.pow 10 places) denominator
  let whole := Text.ofNat (scaled / Nat.pow 10 places)
  if places = 0 then whole
  else
    let digits := Text.ofNat (scaled % Nat.pow 10 places)
    whole ++ "." ++ Text.repeated 48 (places - digits.length) ++ digits

/-- A finite double precision number without its sign, with a fixed number of places. -/
def Binary64.fixed (places : Nat) (number : Binary64) : Text :=
  let (numerator, denominator) := number.fraction
  fixedPoint places numerator denominator

end Aml
