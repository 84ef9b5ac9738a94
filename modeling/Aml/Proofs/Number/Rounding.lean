import Mathlib
import Aml.Proofs.Number.Denotation
import Aml.Proofs.Number.Word

/-!
# Reals are rounded correctly

A fraction is scaled by a power of two, rounded to an integer and scaled back. The integer is the
nearest one, and even when there are two (`roundedQuotient_nearest`). Every number of the format is
either a multiple of the power or smaller than the scaled significand can become, so no number of
the format is nearer than the rounded one (`Binary64.rounds_of_isNearestInteger`). Where rounding
gives one bit too many, the same number has another significand and exponent
(`Binary64.Rounds.carry`). The bits of the result are those of its sign, its significand and its
exponent (`Binary64.Canonical.fields`), and so they are the nearest word
(`Binary64.Rounds.nearest_word`).
-/
namespace Aml

/-- A natural number is nearest to a rational one among the integers, and even if another integer is
as near. -/
structure IsNearestInteger (number : ℚ) (rounded : Nat) : Prop where
  nearest : ∀ other : Int, |rounded - number| ≤ |other - number|
  even : ∀ other : Int, other ≠ rounded → |other - number| = |rounded - number| → rounded % 2 = 0

/-- The nearest integer to a number between two integers is between them. -/
theorem IsNearestInteger.bounds {number : ℚ} {rounded : Nat}
    (integer : IsNearestInteger number rounded) :
    (∀ high : Nat, number < high → rounded ≤ high) ∧
      ∀ low : Nat, (low : ℚ) ≤ number → low ≤ rounded := by
  constructor
  · intro high below
    have closer := integer.nearest high
    rw [Int.cast_natCast, abs_of_pos (sub_pos.mpr below)] at closer
    have signed := (le_abs_self _).trans closer
    exact_mod_cast (by linarith : (rounded : ℚ) ≤ high)
  · intro low above
    have closer := integer.nearest low
    rw [Int.cast_natCast, abs_of_nonpos (sub_nonpos.mpr above)] at closer
    have signed := (neg_le_abs _).trans closer
    exact_mod_cast (by linarith : (low : ℚ) ≤ rounded)

/-- An integer at most half a unit away is nearest, when it is even at half a unit. -/
theorem isNearestInteger_of_half {number : ℚ} {rounded : Nat}
    (half : |(rounded : ℚ) - number| ≤ 1 / 2)
    (tie : |(rounded : ℚ) - number| = 1 / 2 → rounded % 2 = 0) :
    IsNearestInteger number rounded := by
  have apart (other : Int) (distinct : other ≠ rounded) :
      1 - |(rounded : ℚ) - number| ≤ |other - number| := by
    have step : (1 : ℚ) ≤ |(other : ℚ) - rounded| := by
      exact_mod_cast Int.one_le_abs (sub_ne_zero.mpr distinct)
    have triangle := abs_sub_le (other : ℚ) number rounded
    rw [abs_sub_comm number] at triangle
    linarith
  constructor
  · intro other
    by_cases same : other = rounded
    · rw [same, Int.cast_natCast]
    · linarith [apart other same]
  · intro other distinct alike
    exact tie (by linarith [apart other distinct])

/-- The rounded quotient is the nearest integer. -/
theorem roundedQuotient_nearest (numerator : Nat) {denominator : Nat}
    (positive : 0 < denominator) :
    IsNearestInteger ((numerator : ℚ) / denominator)
      (roundedQuotient numerator denominator) := by
  have divides : (0 : ℚ) < denominator := by exact_mod_cast positive
  have small := Nat.mod_lt numerator positive
  have split : (denominator : ℚ) * (numerator / denominator : Nat) +
      (numerator % denominator : Nat) = numerator := by
    exact_mod_cast Nat.div_add_mod numerator denominator
  rw [roundedQuotient]
  generalize numerator / denominator = quotient at *
  generalize numerator % denominator = remainder at *
  -- The number is the quotient and a part of a unit, which is compared with a half.
  obtain ⟨part, defined⟩ : ∃ part, part = (remainder : ℚ) / denominator := ⟨_, rfl⟩
  have number : (numerator : ℚ) / denominator = quotient + part := by
    rw [← split, defined]
    field_simp
  have least : 0 ≤ part := by
    rw [defined]
    positivity
  have most : part < 1 := by
    rw [defined, div_lt_one divides]
    exact_mod_cast small
  have more : denominator < 2 * remainder ↔ 1 / 2 < part := by
    rw [defined, div_lt_div_iff₀ two_pos divides, one_mul, mul_comm (remainder : ℚ)]
    exact_mod_cast Iff.rfl
  have middle : 2 * remainder = denominator ↔ part = 1 / 2 := by
    rw [defined, div_eq_div_iff divides.ne' two_ne_zero, one_mul, mul_comm (remainder : ℚ)]
    exact_mod_cast Iff.rfl
  have up : |((quotient + 1 : Nat) : ℚ) - (quotient + part)| = 1 - part := by
    rw [Nat.cast_add, Nat.cast_one, add_sub_add_left_eq_sub, abs_of_nonneg (by linarith)]
  have down : |(quotient : ℚ) - (quotient + part)| = part := by
    rw [sub_add_cancel_left, abs_neg, abs_of_nonneg least]
  rw [number]
  split_ifs with above tie
  · have past := more.mp above
    refine isNearestInteger_of_half ?_ ?_
    · rw [up]
      linarith
    · rw [up]
      intro half
      linarith
  · have half := middle.mp tie.1
    refine isNearestInteger_of_half ?_ ?_
    · rw [up]
      linarith
    · intro _
      omega
  · have within := not_lt.mp (mt more.mpr above)
    refine isNearestInteger_of_half ?_ ?_
    · rw [down]
      exact within
    · rw [down]
      intro half
      have even : ¬quotient % 2 = 1 := fun odd => tie ⟨middle.mpr half, odd⟩
      omega

namespace Binary64

/-- The significand and the exponent with which a finite number of the format is written. -/
structure Canonical (significand : Nat) (exponent : Int) : Prop where
  below : significand < 2 ^ 53
  least : leastExponent ≤ exponent
  greatest : exponent ≤ greatestExponent
  /-- Only the least exponent goes with fewer than 53 bits. -/
  full : significand < 2 ^ 52 → exponent = leastExponent

/-- A significand and an exponent round a magnitude: no number of the format is nearer, and if
another one is as near, the significand is even. -/
structure Rounds (size : ℚ) (significand : Nat) (exponent : Int) : Prop where
  nearest : ∀ other place : Int, |other| < 2 ^ 53 → leastExponent ≤ place →
    |significand * (2 : ℚ) ^ exponent - size| ≤ |other * 2 ^ place - size|
  even : ∀ other place : Int, |other| < 2 ^ 53 → leastExponent ≤ place →
    other * (2 : ℚ) ^ place ≠ significand * 2 ^ exponent →
    |other * 2 ^ place - size| = |significand * (2 : ℚ) ^ exponent - size| →
    significand % 2 = 0

section Scaled

variable {number : ℚ} {rounded : Nat} {exponent : Int}

/-- Distances are scaled as the numbers are. -/
theorem abs_scaled (integer number : ℚ) (exponent : Int) :
    |integer * 2 ^ exponent - number * 2 ^ exponent| = |integer - number| * 2 ^ exponent := by
  have power : (0 : ℚ) < 2 ^ exponent := by positivity
  rw [← sub_mul, abs_mul, abs_of_pos power]

/-- A number of the format with at least the exponent is a multiple of its power. -/
theorem exists_multiple {place : Int} (within : exponent ≤ place) (other : Int) :
    ∃ multiple : Int, (other : ℚ) * 2 ^ place = multiple * 2 ^ exponent := by
  refine ⟨other * 2 ^ (place - exponent).toNat, ?_⟩
  have whole : place = (place - exponent).toNat + exponent := by omega
  conv_lhs => rw [whole, zpow_add₀ (by norm_num), zpow_natCast]
  push_cast
  ring

/-- A number of the format with a smaller exponent stays below the significands of 53 bits. -/
theorem lt_of_place_lt {place other : Int} (bounded : |other| < 2 ^ 53) (below : place < exponent) :
    (other : ℚ) * 2 ^ place < 2 ^ 52 * 2 ^ exponent := by
  have power : (0 : ℚ) < 2 ^ place := by positivity
  have small : (other : ℚ) < 2 ^ 53 := by exact_mod_cast (abs_lt.mp bounded).2
  calc (other : ℚ) * 2 ^ place < 2 ^ 53 * 2 ^ place := mul_lt_mul_of_pos_right small power
    _ = 2 ^ 52 * 2 ^ (place + 1) := by
      rw [zpow_add₀ (by norm_num), zpow_one]
      ring
    _ ≤ 2 ^ 52 * 2 ^ exponent :=
      mul_le_mul_of_nonneg_left (zpow_le_zpow_right₀ (by norm_num) (by omega)) (by norm_num)

/-- Rounding to an integer rounds in the format, if the number has 53 bits before the point or the
exponent is the least one. -/
theorem rounds_of_isNearestInteger (integer : IsNearestInteger number rounded)
    (wide : leastExponent < exponent → 2 ^ 52 ≤ number) :
    Rounds (number * 2 ^ exponent) rounded exponent := by
  have power : (0 : ℚ) < 2 ^ exponent := by positivity
  -- A number of the format with a smaller exponent is farther away than the least significand of
  -- 53 bits, which is an integer.
  have farther {other place : Int} (bounded : |other| < 2 ^ 53) (least : leastExponent ≤ place)
      (below : place < exponent) :
      |(rounded : ℚ) * 2 ^ exponent - number * 2 ^ exponent| <
        |other * 2 ^ place - number * 2 ^ exponent| := by
    have enough := wide (by omega)
    have closer := integer.nearest (2 ^ 52)
    rw [Int.cast_pow, Int.cast_ofNat, abs_of_nonpos (sub_nonpos.mpr enough)] at closer
    have short := lt_of_place_lt bounded below
    rw [abs_scaled]
    calc |(rounded : ℚ) - number| * 2 ^ exponent ≤ -(2 ^ 52 - number) * 2 ^ exponent :=
          mul_le_mul_of_nonneg_right closer power.le
      _ < -(other * 2 ^ place - number * 2 ^ exponent) := by linarith
      _ ≤ |other * 2 ^ place - number * 2 ^ exponent| := neg_le_abs _
  constructor
  · intro other place bounded least
    by_cases within : exponent ≤ place
    · obtain ⟨multiple, same⟩ := exists_multiple within other
      rw [same, abs_scaled, abs_scaled]
      exact mul_le_mul_of_nonneg_right (integer.nearest multiple) power.le
    · exact (farther bounded least (not_le.mp within)).le
  · intro other place bounded least distinct alike
    by_cases within : exponent ≤ place
    · obtain ⟨multiple, same⟩ := exists_multiple within other
      rw [same] at distinct alike
      rw [abs_scaled, abs_scaled, mul_left_inj' power.ne'] at alike
      refine integer.even multiple (fun equal => distinct ?_) alike
      rw [equal, Int.cast_natCast]
    · exact absurd alike (farther bounded least (not_le.mp within)).ne'

/-- One bit too many is a bit less at the next exponent. -/
theorem Rounds.carry {size : ℚ} (rounds : Rounds size (2 ^ 53) exponent) :
    Rounds size (2 ^ 52) (exponent + 1) := by
  have same : ((2 ^ 52 : Nat) : ℚ) * 2 ^ (exponent + 1) = (2 ^ 53 : Nat) * 2 ^ exponent := by
    rw [zpow_add₀ (by norm_num), zpow_one]
    push_cast
    ring
  constructor
  · rw [same]
    exact rounds.nearest
  · intro other place bounded least distinct alike
    decide

end Scaled

/-! ## The nearest number of the format -/

/-- Rounded at its exponent, a positive fraction is rounded in the format. There may be one bit too
many, and there are fewer than 53 only at the least exponent. -/
theorem rounds_scaled {numerator denominator rounded : Nat} (nonzero : numerator ≠ 0)
    (positive : 0 < denominator)
    (defined : roundedQuotient
        (scaledDown 2 numerator denominator (exponentOf numerator denominator)).1
        (scaledDown 2 numerator denominator (exponentOf numerator denominator)).2 = rounded) :
    Rounds ((numerator : ℚ) / denominator) rounded (exponentOf numerator denominator) ∧
      rounded ≤ 2 ^ 53 ∧
      (rounded < 2 ^ 52 → exponentOf numerator denominator = leastExponent) := by
  obtain ⟨unit, scaled⟩ := scaledDown_ratio (by norm_num : 0 < 2) numerator positive
    (exponentOf numerator denominator)
  obtain ⟨below, wide⟩ := scaled_bounds nonzero positive
  obtain ⟨size, chosen, _, _⟩ := exponentOf_spec nonzero positive
  generalize exponentOf numerator denominator = exponent at *
  have integer := roundedQuotient_nearest (scaledDown 2 numerator denominator exponent).1 unit
  rw [scaled, Nat.cast_ofNat, defined] at integer
  have rounds := rounds_of_isNearestInteger integer wide
  have power : (2 : ℚ) ^ exponent ≠ 0 := by positivity
  rw [div_mul_cancel₀ _ power] at rounds
  refine ⟨rounds, integer.bounds.1 _ (by exact_mod_cast below), fun less => ?_⟩
  by_contra other
  have enough := integer.bounds.2 (2 ^ 52) (by exact_mod_cast wide (by omega))
  exact absurd less (not_lt.mpr enough)

/-- The nearest number of a fraction has the sign, and rounds the fraction. -/
theorem rounds_of_nearest? {negative : Bool} {numerator denominator : Nat} {number : Binary64}
    (positive : 0 < denominator) (found : nearest? negative numerator denominator = some number) :
    ∃ significand exponent, number = .finite negative significand exponent ∧
      Canonical significand exponent ∧
      Rounds ((numerator : ℚ) / denominator) significand exponent := by
  by_cases zero : numerator = 0
  · rw [nearest?, if_pos zero] at found
    refine ⟨0, leastExponent, (Option.some.inj found).symm, ⟨by decide, le_refl _, by decide,
      fun _ => rfl⟩, ?_, fun _ _ _ _ _ _ => rfl⟩
    intro other place _ _
    have none : |((0 : Nat) : ℚ) * 2 ^ leastExponent - numerator / denominator| = 0 := by
      simp [zero]
    rw [none]
    exact abs_nonneg _
  · obtain ⟨rounds, most, full⟩ := rounds_scaled zero positive rfl
    obtain ⟨size, chosen, _, _⟩ := exponentOf_spec zero positive
    have least : leastExponent ≤ exponentOf numerator denominator := by omega
    rw [nearest?, if_neg zero] at found
    dsimp only at found
    generalize exponentOf numerator denominator = exponent at *
    generalize roundedQuotient _ _ = rounded at *
    by_cases carries : rounded = Nat.pow 2 53
    · rw [if_pos carries] at found
      split at found
      · contradiction
      · rw [carries] at rounds
        exact ⟨Nat.pow 2 52, exponent + 1, (Option.some.inj found).symm,
          ⟨by decide, by omega, by omega, fun less => absurd less (lt_irrefl _)⟩, rounds.carry⟩
    · rw [if_neg carries] at found
      split at found
      · contradiction
      · exact ⟨rounded, exponent, (Option.some.inj found).symm,
          ⟨lt_of_le_of_ne most carries, least, by omega, full⟩, rounds⟩

/-! ## The word -/

/-- The bits of a number are its sign and, after it, its exponent and its significand without the
first of 53 bits. -/
theorem bits_finite (negative : Bool) (significand : Nat) (exponent : Int) :
    bits (.finite negative significand exponent) = Word.ofMagnitude negative
      (if significand < 2 ^ 52 then significand
      else (exponent - leastExponent + 1).toNat * 2 ^ 52 + (significand - 2 ^ 52)) :=
  rfl

/-- The bits of a number are read as its sign, its significand and its exponent. -/
theorem Canonical.fields {significand : Nat} {exponent : Int}
    (canonical : Canonical significand exponent) (negative : Bool) :
    Word.isNegative (bits (.finite negative significand exponent)) = negative ∧
      Word.IsFinite (bits (.finite negative significand exponent)) ∧
      Word.significand (bits (.finite negative significand exponent)) = significand ∧
      Word.exponent (bits (.finite negative significand exponent)) = exponent := by
  obtain ⟨below, least, greatest, full⟩ := canonical
  rw [leastExponent] at least full
  rw [greatestExponent] at greatest
  rw [bits_finite, leastExponent]
  by_cases subnormal : significand < 2 ^ 52
  · have fixed := full subnormal
    rw [if_pos subnormal]
    obtain ⟨sign, same⟩ := Word.ofMagnitude_spec negative (by omega : significand < 2 ^ 63)
    generalize Word.ofMagnitude negative significand = word at *
    obtain ⟨high, low⟩ := Word.fields_eq word
    have field : Word.exponentField word = 0 := by omega
    rw [Word.IsFinite, Word.significand, Word.exponent, if_pos field]
    exact ⟨sign, by omega, by omega, by omega⟩
  · -- A significand of 53 bits leaves its first bit to the exponent field.
    rw [if_neg subnormal]
    generalize laid : (exponent - -1074 + 1).toNat * 2 ^ 52 + (significand - 2 ^ 52) = magnitude
    obtain ⟨sign, same⟩ := Word.ofMagnitude_spec negative (by omega : magnitude < 2 ^ 63)
    generalize Word.ofMagnitude negative magnitude = word at *
    obtain ⟨high, low⟩ := Word.fields_eq word
    have field : Word.exponentField word = (exponent + 1075).toNat := by omega
    rw [Word.IsFinite, Word.significand, Word.exponent, if_neg (by omega)]
    exact ⟨sign, by omega, by omega, by omega⟩

/-- The value of a word is, after either sign, a number of the format. -/
theorem exists_of_word (word : UInt64) (negative : Bool) :
    ∃ integer place : Int, |integer| < 2 ^ 53 ∧ leastExponent ≤ place ∧
      Word.value word = (if negative then -1 else 1) * (integer * 2 ^ place) := by
  have small : |(Word.significand word : Int)| < 2 ^ 53 := by
    rw [Nat.abs_cast]
    exact_mod_cast Word.significand_lt word
  have least : leastExponent ≤ Word.exponent word := by
    rw [leastExponent, Word.exponent]
    omega
  rw [Word.value]
  by_cases same : Word.isNegative word = negative
  · exact ⟨Word.significand word, Word.exponent word, small, least, by rw [same]; rfl⟩
  · refine ⟨-Word.significand word, Word.exponent word, by rwa [abs_neg], least, ?_⟩
    rw [Bool.eq_not_of_ne same]
    cases negative <;> simp

/-- A common sign does not count for the distance. -/
theorem abs_signed (negative : Bool) (left right : ℚ) :
    |(if negative then -1 else 1) * left - (if negative then -1 else 1) * right| =
      |left - right| := by
  rw [← mul_sub, abs_mul]
  cases negative <;> simp

/-- What rounds a magnitude gives, with a sign, the word nearest to the number with this sign. -/
theorem Rounds.nearest_word {size : ℚ} {significand : Nat} {exponent : Int}
    (rounds : Rounds size significand exponent) (canonical : Canonical significand exponent)
    (negative : Bool) :
    Word.Nearest ((if negative then -1 else 1) * size)
      (bits (.finite negative significand exponent)) := by
  obtain ⟨sign, finite, digits, place⟩ := canonical.fields negative
  have own : Word.value (bits (.finite negative significand exponent)) =
      (if negative then -1 else 1) * (significand * 2 ^ exponent) := by
    rw [Word.value, sign, digits, place]
  refine ⟨finite, ?_, ?_⟩
  · intro other _
    obtain ⟨integer, place, bounded, least, same⟩ := exists_of_word other negative
    rw [own, same, abs_signed, abs_signed]
    exact rounds.nearest integer place bounded least
  · intro other _ distinct alike
    obtain ⟨integer, place, bounded, least, same⟩ := exists_of_word other negative
    rw [own, same] at distinct alike
    rw [abs_signed, abs_signed] at alike
    rw [digits]
    exact rounds.even integer place bounded least (fun equal => distinct (by rw [equal])) alike

/-- The nearest number of a fraction has the nearest word. -/
theorem nearest_word_of_nearest? {negative : Bool} {numerator denominator : Nat}
    {number : Binary64} (positive : 0 < denominator)
    (found : nearest? negative numerator denominator = some number) :
    Word.Nearest ((if negative then -1 else 1) * ((numerator : ℚ) / denominator)) number.bits ∧
      Word.isNegative number.bits = negative := by
  obtain ⟨significand, exponent, rfl, canonical, rounds⟩ := rounds_of_nearest? positive found
  exact ⟨rounds.nearest_word canonical negative, (canonical.fields negative).1⟩

end Binary64

open Numeral

/-- A numeral starts with a minus sign when it is negative. -/
theorem Numeral.head?_sign (negative : Bool) {digits : Text} (shaped : IsNumeral digits)
    (rest : Text) : (sign negative ++ (digits ++ rest)).head? = some 45 ↔ negative = true := by
  cases negative with
  | true => simp [sign]
  | false =>
    obtain ⟨first, others, rfl⟩ := List.exists_cons_of_ne_nil shaped.present
    have bounds := isDigit_iff.mp (shaped.numeric first List.mem_cons_self)
    have foreign : first ≠ 45 := by
      rintro rfl
      exact absurd bounds.1 (by decide)
    simp [sign, foreign]

/-- Reals are rounded correctly. Digits around a point, after an optional minus sign, are read as
the number whose bits are the finite word nearest to their exact value, a tie going to the even
significand, with the sign bit set exactly when there is a minus sign; and no other word with this
sign is nearest. They are refused only as out of range, from the middle between the largest finite
number and the power of two after it on, and so never for being small. -/
theorem Converter.real_nearest (negative : Bool) {whole places : Text} (shaped : IsNumeral whole)
    (placed : IsNumeral places) :
    match Converter.real.convert (sign negative ++ (whole ++ point :: places)) with
    | .ok value => ∃ number, value = some (.real number) ∧
        Word.Nearest (exact negative whole places) number.bits ∧
        (Word.isNegative number.bits ↔
          (sign negative ++ (whole ++ point :: places)).head? = some 45) ∧
        ∀ word, Word.Nearest (exact negative whole places) word →
          Word.isNegative word = Word.isNegative number.bits → word = number.bits
    | .error cause =>
      cause = .numeral .real (sign negative ++ (whole ++ point :: places)) .outOfRange ∧
        2 ^ 1024 - 2 ^ 970 ≤ |exact negative whole places| := by
  simp only [real]
  obtain ⟨_, number, found, read⟩ | ⟨large, read⟩ := real_numeral_cases negative shaped placed
  · obtain ⟨nearest, signed⟩ :=
      Binary64.nearest_word_of_nearest? (Nat.pow_pos (by norm_num)) found
    rw [← exact_eq] at nearest
    rw [read]
    refine ⟨number, rfl, nearest, ?_, fun word again same => again.unique nearest same⟩
    rw [signed, head?_sign negative shaped]
  · rw [read]
    exact ⟨rfl, large⟩

/-- The middle between two numbers of 53 bits is rounded to the even one. -/
theorem Converter.real_nearest_tie :
    Converter.real.convert ("-9007199254740993.0" : String) =
        .ok (some (.real (.finite true 4503599627370496 1))) ∧
      Word.Nearest (exact true ("9007199254740993" : String) ("0" : String))
        0xC340000000000000 := by
  have shaped : IsNumeral ("9007199254740993" : String) := ⟨by decide, by decide +kernel⟩
  have placed : IsNumeral ("0" : String) := ⟨by decide, by decide +kernel⟩
  have read : Converter.real.convert ("-9007199254740993.0" : String) =
      .ok (some (.real (.finite true 4503599627370496 1))) := by rfl
  have rounded := real_nearest true shaped placed
  have same : sign true ++ (("9007199254740993" : String) ++ point :: ("0" : String)) =
      ("-9007199254740993.0" : String) := by rfl
  rw [same, read] at rounded
  obtain ⟨number, equal, nearest, _⟩ := rounded
  obtain rfl := Value.real.inj (Option.some.inj equal)
  exact ⟨read, nearest⟩

end Aml
