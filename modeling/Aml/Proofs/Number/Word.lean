import Mathlib

/-!
# Words of double precision

A word of 64 bits stands for a number as IEEE 754 lays it out: a sign bit, eleven bits of exponent
and 52 bits of fraction, in front of which a one is understood unless the exponent bits are all
clear. `Word.Nearest` says which word a number should be rounded to. The bits after the sign count
the numbers of the format from zero on, in strictly increasing order (`Word.units_strictMono`), and
the last bit of the significand changes at each step. So of two neighbours only one is even, and
there is only one nearest word of each sign (`Word.Nearest.unique`).
-/
namespace Aml.Word

/-- Whether the sign bit is set. -/
def isNegative (word : UInt64) : Bool :=
  2 ^ 63 ≤ word.toNat

/-- The eleven bits of the exponent. -/
def exponentField (word : UInt64) : Nat :=
  word.toNat / 2 ^ 52 % 2 ^ 11

/-- The 52 bits of the fraction. -/
def fractionField (word : UInt64) : Nat :=
  word.toNat % 2 ^ 52

/-- A word whose exponent bits are not all set stands for a finite number. -/
def IsFinite (word : UInt64) : Prop :=
  exponentField word < 2 ^ 11 - 1

/-- The significand as an integer: the fraction, after a one unless the number is subnormal. -/
def significand (word : UInt64) : Nat :=
  if exponentField word = 0 then fractionField word else 2 ^ 52 + fractionField word

/-- The exponent of the last bit of the significand; subnormal numbers share the least one. -/
def exponent (word : UInt64) : Int :=
  max 1 (exponentField word : Int) - 1075

/-- The number for which a finite word stands. -/
def value (word : UInt64) : ℚ :=
  (if isNegative word then -1 else 1) * (significand word * 2 ^ exponent word)

/-- A finite word is nearest to a number: no finite word is nearer, and if another value is as near,
the significand is even. -/
structure Nearest (number : ℚ) (word : UInt64) : Prop where
  finite : IsFinite word
  nearest : ∀ other, IsFinite other → |value word - number| ≤ |value other - number|
  even : ∀ other, IsFinite other → value other ≠ value word →
    |value other - number| = |value word - number| → significand word % 2 = 0

/-! ## Counting from zero -/

/-- The bits after the sign. -/
def magnitude (word : UInt64) : Nat :=
  word.toNat % 2 ^ 63

/-- The word of a sign and the bits after it. -/
def ofMagnitude (negative : Bool) (bits : Nat) : UInt64 :=
  ((if negative then 2 ^ 63 else 0) + bits).toUInt64

/-- The number of the least units in the number that stands for the bits after the sign. -/
def units (bits : Nat) : Nat :=
  if bits / 2 ^ 52 = 0 then bits % 2 ^ 52 else (2 ^ 52 + bits % 2 ^ 52) * 2 ^ (bits / 2 ^ 52 - 1)

/-- The number after another one in the format has more units. -/
theorem units_lt_succ (bits : Nat) : units bits < units (bits + 1) := by
  have split := Nat.div_add_mod bits (2 ^ 52)
  have small := Nat.mod_lt bits (Nat.two_pow_pos 52)
  rw [units, units]
  generalize high : bits / 2 ^ 52 = field at *
  generalize low : bits % 2 ^ 52 = fraction at *
  have power := Nat.two_pow_pos (field - 1)
  by_cases carries : fraction + 1 = 2 ^ 52
  · -- The fraction overflows into the exponent.
    have next : (bits + 1) / 2 ^ 52 = field + 1 ∧ (bits + 1) % 2 ^ 52 = 0 := by omega
    rw [next.1, next.2, if_neg (Nat.succ_ne_zero field), Nat.add_zero, Nat.add_sub_cancel]
    by_cases subnormal : field = 0
    · rw [if_pos subnormal, subnormal, Nat.pow_zero, Nat.mul_one]
      exact small
    · have doubled : 2 ^ field = 2 * 2 ^ (field - 1) := by
        rw [← Nat.pow_succ', Nat.succ_eq_add_one, Nat.sub_add_cancel (by omega)]
      rw [if_neg subnormal, doubled]
      calc (2 ^ 52 + fraction) * 2 ^ (field - 1) < (2 ^ 52 * 2) * 2 ^ (field - 1) :=
            Nat.mul_lt_mul_of_pos_right (by omega) power
        _ = 2 ^ 52 * (2 * 2 ^ (field - 1)) := Nat.mul_assoc ..
  · have next : (bits + 1) / 2 ^ 52 = field ∧ (bits + 1) % 2 ^ 52 = fraction + 1 := by omega
    rw [next.1, next.2]
    split
    · exact Nat.lt_succ_self fraction
    · exact Nat.mul_lt_mul_of_pos_right (by omega) power

/-- The bits after the sign are in the order of the numbers for which they stand. -/
theorem units_strictMono : StrictMono units :=
  strictMono_nat_of_lt_succ units_lt_succ

section Fields

variable (word : UInt64)

/-- The fields are in the bits after the sign. -/
theorem fields_eq :
    exponentField word = magnitude word / 2 ^ 52 ∧
      fractionField word = magnitude word % 2 ^ 52 := by
  rw [exponentField, fractionField, magnitude]
  omega

/-- The magnitude of a number is as many least units as its bits count. -/
theorem significand_mul_eq :
    (significand word : ℚ) * 2 ^ exponent word = units (magnitude word) * 2 ^ (-1074 : Int) := by
  obtain ⟨field, fraction⟩ := fields_eq word
  rw [significand, exponent, units, ← field, ← fraction]
  by_cases subnormal : exponentField word = 0
  · rw [if_pos subnormal, if_pos subnormal, subnormal]
    rfl
  · have shifted : (max 1 (exponentField word : Int) - 1075) =
        ((exponentField word - 1 : Nat) : Int) + (-1074) := by omega
    rw [if_neg subnormal, if_neg subnormal, shifted, zpow_add₀ (by norm_num), zpow_natCast,
      Nat.cast_mul, Nat.cast_pow, Nat.cast_ofNat, mul_assoc]

/-- A number is as many least units as its bits count, with its sign. -/
theorem value_eq_units :
    value word =
      (if isNegative word then -1 else 1) * (units (magnitude word) * 2 ^ (-1074 : Int)) := by
  rw [value, significand_mul_eq]

/-- The last bit of the significand is the last bit of the word. -/
theorem significand_mod_two : significand word % 2 = magnitude word % 2 := by
  rw [significand, fractionField, magnitude]
  split <;> omega

/-- The bits after the sign tell whether a word is finite. -/
theorem isFinite_iff : IsFinite word ↔ magnitude word < 2047 * 2 ^ 52 := by
  rw [IsFinite, exponentField, magnitude]
  omega

/-- A significand has at most 53 bits. -/
theorem significand_lt : significand word < 2 ^ 53 := by
  rw [significand, fractionField]
  split <;> omega

end Fields

/-- A sign and the bits after it can be read off their word. -/
theorem ofMagnitude_spec (negative : Bool) {bits : Nat} (small : bits < 2 ^ 63) :
    isNegative (ofMagnitude negative bits) = negative ∧
      magnitude (ofMagnitude negative bits) = bits := by
  have same : (ofMagnitude negative bits).toNat = (if negative then 2 ^ 63 else 0) + bits := by
    rw [ofMagnitude]
    refine UInt64.toNat_ofNat_of_lt' ?_
    change _ < 2 ^ 64
    split <;> omega
  rw [isNegative, magnitude, same]
  cases negative with
  | true => exact ⟨decide_eq_true (by simp), by simp; omega⟩
  | false => exact ⟨decide_eq_false (by simp; omega), by simp; omega⟩

/-- A word is its sign and the bits after it. -/
theorem eq_of_magnitude {word other : UInt64} (signs : isNegative word = isNegative other)
    (same : magnitude word = magnitude other) : word = other := by
  have first := word.toNat_lt
  have second := other.toNat_lt
  rw [isNegative, isNegative, decide_eq_decide] at signs
  rw [magnitude, magnitude] at same
  apply UInt64.toNat_inj.mp
  omega

/-- Words of one sign are in the order of their magnitudes, or in the opposite order when they are
negative. -/
theorem value_lt_or {word other : UInt64} (signs : isNegative word = isNegative other)
    (less : magnitude word < magnitude other) :
    isNegative word = false ∧ value word < value other ∨
      isNegative word = true ∧ value other < value word := by
  have ordered : (units (magnitude word) : ℚ) < units (magnitude other) := by
    exact_mod_cast units_strictMono less
  have unit : (0 : ℚ) < 2 ^ (-1074 : Int) := by positivity
  have scaled := mul_lt_mul_of_pos_right ordered unit
  rw [value_eq_units, value_eq_units, ← signs]
  cases isNegative word with
  | true => exact .inr ⟨rfl, by simpa using scaled⟩
  | false => exact .inl ⟨rfl, by simpa using scaled⟩

/-! ## The nearest word -/

/-- Strictly between two numbers at the same distance lie nearer ones. -/
theorem abs_lt_of_between {low middle high number : ℚ} (above : low < middle)
    (below : middle < high) (same : |low - number| = |high - number|) :
    |middle - number| < |low - number| := by
  have center : low - number = -(high - number) := by
    obtain equal | opposite := abs_eq_abs.mp same
    · linarith
    · exact opposite
  have distance : number - low ≤ |low - number| := by
    rw [abs_sub_comm]
    exact le_abs_self _
  rw [abs_lt]
  constructor <;> linarith

namespace Nearest

variable {number : ℚ} {word other : UInt64}

/-- Two nearest words are at the same distance. -/
theorem abs_eq (nearest : Nearest number word) (again : Nearest number other) :
    |value word - number| = |value other - number| :=
  le_antisymm (nearest.nearest other again.finite) (again.nearest word nearest.finite)

/-- Of two nearest words of the same sign, none is closer to zero. -/
theorem magnitude_le (nearest : Nearest number word) (again : Nearest number other)
    (signs : isNegative word = isNegative other) : magnitude other ≤ magnitude word := by
  by_contra above
  have less := not_le.mp above
  have alike := nearest.abs_eq again
  have distinct : value other ≠ value word := by
    obtain ⟨_, ordered⟩ | ⟨_, ordered⟩ := value_lt_or signs less
    · exact ordered.ne'
    · exact ordered.ne
  have even := nearest.even other again.finite distinct alike.symm
  have otherEven := again.even word nearest.finite distinct.symm alike
  rw [significand_mod_two] at even otherEven
  -- Both are even, so the word after the lower one lies between them and is nearer.
  have gap : magnitude word + 1 < magnitude other := by omega
  have bound := (isFinite_iff other).mp again.finite
  obtain ⟨sign, between⟩ :=
    ofMagnitude_spec (isNegative word) (show magnitude word + 1 < 2 ^ 63 by omega)
  generalize ofMagnitude (isNegative word) (magnitude word + 1) = middle at sign between
  have finite : IsFinite middle := (isFinite_iff middle).mpr (by omega)
  have farther := nearest.nearest middle finite
  have first : magnitude word < magnitude middle := by omega
  have last : magnitude middle < magnitude other := by omega
  have closer : |value middle - number| < |value word - number| := by
    obtain ⟨plus, up⟩ | ⟨minus, down⟩ := value_lt_or sign.symm first
    · obtain ⟨_, above⟩ | ⟨conflict, _⟩ := value_lt_or (sign.trans signs) last
      · exact abs_lt_of_between up above alike
      · rw [sign, plus] at conflict
        contradiction
    · obtain ⟨conflict, _⟩ | ⟨_, below⟩ := value_lt_or (sign.trans signs) last
      · rw [sign, minus] at conflict
        contradiction
      · rw [alike]
        exact abs_lt_of_between below down alike.symm
  exact absurd closer farther.not_gt

/-- There is one nearest word of each sign. -/
theorem unique (nearest : Nearest number word) (again : Nearest number other)
    (signs : isNegative word = isNegative other) : word = other :=
  eq_of_magnitude signs
    (le_antisymm (again.magnitude_le nearest signs.symm) (nearest.magnitude_le again signs))

end Nearest

end Aml.Word
