import Mathlib
import Aml.Number.Binary64

/-!
# The range of double precision

`Binary64.nearest?` finds a number for a fraction exactly when the fraction lies below the middle
between the largest finite number and the power of two after it (`Binary64.nearest?_isSome_iff`).
The argument reads scaled fractions as rational numbers: the chosen exponent brackets the fraction
between two powers of two, so its significand has at most 53 bits (`Binary64.scaled_bounds`), and
rounding it can only leave the format from the last half unit before a power of two.
-/
namespace Aml

/-- A scaled fraction is the fraction divided by the power. -/
theorem scaledDown_ratio {base : Nat} (large : 0 < base) (numerator : Nat) {denominator : Nat}
    (positive : 0 < denominator) (exponent : Int) :
    0 < (scaledDown base numerator denominator exponent).2 ∧
      ((scaledDown base numerator denominator exponent).1 : ℚ) /
          (scaledDown base numerator denominator exponent).2 =
        numerator / denominator / (base : ℚ) ^ exponent := by
  have nonzero : (base : ℚ) ≠ 0 := by exact_mod_cast large.ne'
  cases exponent with
  | ofNat exponent =>
    refine ⟨Nat.mul_pos positive (Nat.pow_pos large), ?_⟩
    simp only [scaledDown, Nat.pow_eq, Nat.cast_mul, Nat.cast_pow, Int.ofNat_eq_natCast,
      zpow_natCast, div_div]
  | negSucc exponent =>
    refine ⟨positive, ?_⟩
    simp only [scaledDown, Nat.pow_eq, Nat.cast_mul, Nat.cast_pow, zpow_negSucc, div_inv_eq_mul]
    ring

/-- Rounding below a power of two of 53 bits reaches it exactly from the last half unit on. -/
theorem roundedQuotient_eq_iff {numerator denominator : Nat} (positive : 0 < denominator)
    (below : numerator < Nat.pow 2 53 * denominator) :
    roundedQuotient numerator denominator = Nat.pow 2 53 ↔
      (2 * Nat.pow 2 53 - 1) * denominator ≤ 2 * numerator := by
  have power : Nat.pow 2 53 = 9007199254740992 := by rfl
  have split := Nat.div_add_mod numerator denominator
  have small := Nat.mod_lt numerator positive
  have within : numerator / denominator < Nat.pow 2 53 :=
    Nat.div_lt_of_lt_mul (by rwa [Nat.mul_comm])
  unfold roundedQuotient
  generalize numerator / denominator = quotient at *
  generalize numerator % denominator = remainder at *
  rw [power] at *
  by_cases last : quotient = 9007199254740991
  · -- The quotient is odd, so a tie rounds up as well.
    subst last
    dsimp only
    split_ifs <;> omega
  · have less : denominator * (quotient + 1) ≤ denominator * 9007199254740991 :=
      Nat.mul_le_mul_left denominator (by omega)
    rw [Nat.mul_add] at less
    dsimp only
    split_ifs <;> omega

namespace Binary64

/-- A fraction is between the powers of two that the bits of its parts give. -/
theorem ratio_bracket {numerator denominator : Nat} (nonzero : numerator ≠ 0)
    (positive : 0 < denominator) :
    (2 : ℚ) ^ ((numerator.log2 : Int) - denominator.log2 - 1) ≤ (numerator : ℚ) / denominator ∧
      (numerator : ℚ) / denominator <
        (2 : ℚ) ^ ((numerator.log2 : Int) - denominator.log2 + 1) := by
  have two : (2 : ℚ) ≠ 0 := by norm_num
  have least : (2 : ℚ) ^ numerator.log2 ≤ numerator := by
    exact_mod_cast Nat.log2_self_le nonzero
  have most : (numerator : ℚ) < 2 ^ (numerator.log2 + 1) := by
    exact_mod_cast Nat.lt_log2_self
  have under : (2 : ℚ) ^ denominator.log2 ≤ denominator := by
    exact_mod_cast Nat.log2_self_le positive.ne'
  have above : (denominator : ℚ) < 2 ^ (denominator.log2 + 1) := by
    exact_mod_cast Nat.lt_log2_self
  have divides : (0 : ℚ) < denominator := by exact_mod_cast positive
  constructor
  · calc (2 : ℚ) ^ ((numerator.log2 : Int) - denominator.log2 - 1)
        = 2 ^ numerator.log2 / 2 ^ (denominator.log2 + 1) := by
          rw [sub_sub, zpow_sub₀ two, zpow_natCast]
          norm_cast
      _ ≤ numerator / denominator := by gcongr
  · calc (numerator : ℚ) / denominator
        < 2 ^ (numerator.log2 + 1) / 2 ^ denominator.log2 := by gcongr
      _ = (2 : ℚ) ^ ((numerator.log2 : Int) - denominator.log2 + 1) := by
          rw [sub_add_eq_add_sub, zpow_sub₀ two, zpow_natCast]
          norm_cast

/-- The magnitude of a positive fraction is between two neighbouring powers of two, and its
exponent leaves 53 bits for the significand unless that is below the format. -/
theorem exponentOf_spec {numerator denominator : Nat} (nonzero : numerator ≠ 0)
    (positive : 0 < denominator) :
    ∃ magnitude : Int, exponentOf numerator denominator = max leastExponent (magnitude - 52) ∧
      (2 : ℚ) ^ magnitude ≤ (numerator : ℚ) / denominator ∧
      (numerator : ℚ) / denominator < (2 : ℚ) ^ (magnitude + 1) := by
  obtain ⟨least, most⟩ := ratio_bracket nonzero positive
  set estimate : Int := (numerator.log2 : Int) - denominator.log2 with estimated
  obtain ⟨unit, scaled⟩ := scaledDown_ratio (by norm_num : 0 < 2) numerator positive estimate
  have reaches : (scaledDown 2 numerator denominator estimate).2 ≤
      (scaledDown 2 numerator denominator estimate).1 ↔
      (2 : ℚ) ^ estimate ≤ (numerator : ℚ) / denominator := by
    have unitary : (0 : ℚ) < (scaledDown 2 numerator denominator estimate).2 := by
      exact_mod_cast unit
    have power : (0 : ℚ) < ((2 : Nat) : ℚ) ^ estimate := by positivity
    rw [← @Nat.cast_le ℚ, ← one_le_div unitary, scaled, one_le_div power]
    norm_num
  refine ⟨if (scaledDown 2 numerator denominator estimate).2 ≤
    (scaledDown 2 numerator denominator estimate).1 then estimate else estimate - 1, rfl, ?_⟩
  split
  · exact ⟨reaches.mp ‹_›, most⟩
  · refine ⟨least, ?_⟩
    rw [sub_add_cancel]
    exact lt_of_not_ge (mt reaches.mpr ‹_›)

/-- The middle between the largest finite number and the power of two after it. -/
def overflow : Nat :=
  2 ^ 1024 - 2 ^ 970

/-- The middle is half a unit before the power. -/
theorem overflow_eq : (overflow : ℚ) = (2 ^ 53 - 1 / 2) * (2 : ℚ) ^ (971 : Int) := by
  have power : 2 ^ 1024 = 2 ^ 54 * 2 ^ 970 := by rw [← pow_add]
  have factored : overflow = (2 ^ 54 - 1) * 2 ^ 970 := by
    rw [overflow, power, Nat.sub_mul, Nat.one_mul]
  have unit : (2 : ℚ) ^ (971 : Int) = 2 * ((2 ^ 970 : Nat) : ℚ) := by
    rw [show (971 : Int) = 1 + (970 : Nat) by norm_num, zpow_add₀ (by norm_num), zpow_one,
      zpow_natCast, Nat.cast_pow, Nat.cast_ofNat]
  rw [factored, unit, Nat.cast_mul]
  generalize ((2 ^ 970 : Nat) : ℚ) = least
  norm_num
  ring

/-- At its exponent, a positive fraction is below the significands of 54 bits, and among those of 53
bits unless the exponent is the least one. -/
theorem scaled_bounds {numerator denominator : Nat} (nonzero : numerator ≠ 0)
    (positive : 0 < denominator) :
    (numerator : ℚ) / denominator / 2 ^ exponentOf numerator denominator < 2 ^ 53 ∧
      (leastExponent < exponentOf numerator denominator →
        2 ^ 52 ≤ (numerator : ℚ) / denominator / 2 ^ exponentOf numerator denominator) := by
  obtain ⟨size, chosen, least, most⟩ := exponentOf_spec nonzero positive
  generalize exponentOf numerator denominator = exponent at *
  have power : (0 : ℚ) < 2 ^ exponent := by positivity
  constructor
  · rw [div_lt_iff₀ power]
    calc (numerator : ℚ) / denominator < 2 ^ (size + 1) := most
      _ ≤ 2 ^ (53 + exponent) := zpow_le_zpow_right₀ (by norm_num) (by omega)
      _ = 2 ^ 53 * 2 ^ exponent := by
        rw [zpow_add₀ (by norm_num)]
        rfl
  · intro above
    rw [le_div_iff₀ power]
    calc (2 : ℚ) ^ 52 * 2 ^ exponent = 2 ^ (52 + exponent) := by
          rw [zpow_add₀ (by norm_num)]
          rfl
      _ ≤ 2 ^ size := zpow_le_zpow_right₀ (by norm_num) (by omega)
      _ ≤ numerator / denominator := least

/-- Rounded at its exponent, a positive fraction has at most 53 bits, and reaches the power of two
after them exactly from the last half unit on. -/
theorem rounded_spec {numerator denominator : Nat} (nonzero : numerator ≠ 0)
    (positive : 0 < denominator) :
    roundedQuotient (scaledDown 2 numerator denominator (exponentOf numerator denominator)).1
        (scaledDown 2 numerator denominator (exponentOf numerator denominator)).2 =
        Nat.pow 2 53 ↔
      (2 ^ 53 - 1 / 2) * (2 : ℚ) ^ exponentOf numerator denominator ≤ numerator / denominator := by
  obtain ⟨bits, _⟩ := scaled_bounds nonzero positive
  set exponent := exponentOf numerator denominator
  obtain ⟨unit, scaled⟩ := scaledDown_ratio (by norm_num : 0 < 2) numerator positive exponent
  generalize scaledDown 2 numerator denominator exponent = fraction at *
  have unitary : (0 : ℚ) < fraction.2 := by exact_mod_cast unit
  have power : (0 : ℚ) < (2 : ℚ) ^ exponent := by positivity
  rw [Nat.cast_ofNat] at scaled
  have below : fraction.1 < Nat.pow 2 53 * fraction.2 := by
    rw [← scaled, div_lt_iff₀ unitary] at bits
    exact_mod_cast bits
  have value : (fraction.1 : ℚ) * 2 ^ exponent = numerator / denominator * fraction.2 := by
    field_simp at scaled ⊢
    linarith
  have whole : ((2 * Nat.pow 2 53 - 1 : Nat) : ℚ) = 2 * 2 ^ 53 - 1 := by norm_num
  have scaledUp : (2 ^ 53 - 1 / 2) * 2 ^ exponent ≤ (numerator : ℚ) / denominator ↔
      (2 ^ 53 - 1 / 2) * 2 ^ exponent * (fraction.2 : ℚ) ≤ fraction.1 * 2 ^ exponent := by
    rw [value, mul_le_mul_iff_of_pos_right unitary]
  rw [roundedQuotient_eq_iff unit below, scaledUp, ← @Nat.cast_le ℚ, Nat.cast_mul, Nat.cast_mul,
    whole, ← mul_le_mul_iff_of_pos_right power]
  push_cast
  constructor <;> intro reaches <;> linarith

/-- A fraction has a nearest finite number exactly below the middle between the largest one and
the power of two after it. -/
theorem nearest?_isSome_iff (negative : Bool) (numerator : Nat) {denominator : Nat}
    (positive : 0 < denominator) :
    (nearest? negative numerator denominator).isSome ↔ numerator < overflow * denominator := by
  have bounded : 0 < overflow := by
    rw [← @Nat.cast_pos ℚ, overflow_eq]
    positivity
  by_cases zero : numerator = 0
  · simp [nearest?, zero, bounded, positive]
  · have ratio : numerator < overflow * denominator ↔
        (numerator : ℚ) / denominator < (2 ^ 53 - 1 / 2) * (2 : ℚ) ^ (971 : Int) := by
      rw [← overflow_eq, div_lt_iff₀ (by exact_mod_cast positive)]
      exact_mod_cast Iff.rfl
    obtain ⟨magnitude, chosen, least, most⟩ := exponentOf_spec zero positive
    have rounds := rounded_spec zero positive
    rw [ratio, nearest?, if_neg zero]
    dsimp only
    generalize exponentOf numerator denominator = exponent at *
    generalize (numerator : ℚ) / denominator = value at *
    have wide : exponent = -1074 ∨ exponent = magnitude - 52 := by
      rw [chosen, leastExponent]
      omega
    have narrow : magnitude - 52 ≤ exponent := by omega
    have fits (found : Int) (number : Binary64) :
        (if greatestExponent < found then none else some number).isSome ↔ found ≤ 971 := by
      rw [greatestExponent]
      split <;> simp <;> omega
    have ordered {low high : Int} (less : low ≤ high) :
        (2 ^ 53 - 1 / 2) * (2 : ℚ) ^ low ≤ (2 ^ 53 - 1 / 2) * 2 ^ high :=
      mul_le_mul_of_nonneg_left (zpow_le_zpow_right₀ (by norm_num) less) (by norm_num)
    have unit : (0 : ℚ) < 2 ^ (971 : Int) := by positivity
    by_cases full : roundedQuotient (scaledDown 2 numerator denominator exponent).1
        (scaledDown 2 numerator denominator exponent).2 = Nat.pow 2 53
    · -- Rounding adds a bit, so the exponent must be below the greatest one.
      rw [if_pos full, fits]
      have reaches := rounds.mp full
      constructor
      · intro within
        calc value < 2 ^ (magnitude + 1) := most
          _ ≤ 2 ^ (52 + 971 : Int) := zpow_le_zpow_right₀ (by norm_num) (by omega)
          _ = 2 ^ 52 * 2 ^ (971 : Int) := by rw [zpow_add₀ (by norm_num)]; rfl
          _ ≤ (2 ^ 53 - 1 / 2) * 2 ^ (971 : Int) :=
            mul_le_mul_of_nonneg_right (by norm_num) unit.le
      · intro small
        by_contra large
        exact absurd (reaches.trans_lt small) (ordered (by omega)).not_gt
    · rw [if_neg full, fits]
      have misses := lt_of_not_ge (mt rounds.mpr full)
      constructor
      · exact fun within => misses.trans_le (ordered within)
      · intro small
        by_contra large
        have huge : (2 : ℚ) ^ 53 * 2 ^ (971 : Int) ≤ value := by
          calc (2 : ℚ) ^ 53 * 2 ^ (971 : Int) = 2 ^ (53 + 971 : Int) := by
                rw [zpow_add₀ (by norm_num)]; rfl
            _ ≤ 2 ^ magnitude := zpow_le_zpow_right₀ (by norm_num) (by omega)
            _ ≤ value := least
        have past : (2 ^ 53 - 1 / 2) * (2 : ℚ) ^ (971 : Int) < 2 ^ 53 * 2 ^ (971 : Int) :=
          mul_lt_mul_of_pos_right (by norm_num) unit
        exact absurd (huge.trans_lt small) past.not_gt

end Binary64

end Aml
