import Mathlib
import Aml.Literal
import Aml.Proofs.Number.Numeral

/-!
# Exactly the numerals are read

`Numeral.Denotes` is the grammar of integers: an optional sign and digits, with the integer that
they denote. The reader of integers follows it in both directions (`Numeral.decimal_eq_ok_iff`):
what it reads has this form, because it stops at any byte that is no decimal digit
(`Numeral.isDigit_of_magnitude`), and what has this form is read as the integer denoted unless that
does not fit in 64 bits with sign. `Numeral.exact` is the rational number that digits around a point
denote. Its magnitude alone decides whether it is read, and the limit is the middle between the
largest finite number and the power of two after it (`Numeral.real_numeral_cases`).
-/
namespace Aml

namespace Numeral

/-- An optional sign and decimal digits, with the integer that they denote. -/
inductive Denotes : Text → Int → Prop where
  | unsigned {digits : Text} (shaped : IsNumeral digits) : Denotes digits (value digits)
  | plus {digits : Text} (shaped : IsNumeral digits) : Denotes (43 :: digits) (value digits)
  | minus {digits : Text} (shaped : IsNumeral digits) :
      Denotes (45 :: digits) (-(value digits : Int))

/-- The integers of 64 bits with sign. -/
def InRange (number : Int) : Prop :=
  -2 ^ 63 ≤ number ∧ number < 2 ^ 63

/-- Both bounds of the range are compared. -/
instance (number : Int) : Decidable (InRange number) :=
  inferInstanceAs (Decidable (_ ∧ _))

/-- The number that digits on both sides of a point denote, after an optional minus sign. -/
def exact (negative : Bool) (whole places : Text) : ℚ :=
  (if negative then -1 else 1) * (value whole + value places / 10 ^ places.length)

/-- The number with a point is a fraction of the digits in one row. -/
theorem exact_eq (negative : Bool) (whole places : Text) :
    exact negative whole places = (if negative then -1 else 1) *
      ((value (whole ++ places) : ℚ) / (10 ^ places.length : Nat)) := by
  have nonzero : (10 : ℚ) ^ places.length ≠ 0 := by positivity
  have joined : (value whole : ℚ) + value places / 10 ^ places.length =
      value (whole ++ places) / (10 ^ places.length : Nat) := by
    rw [value_append]
    push_cast
    field_simp
  rw [exact, joined]

/-- The sign does not count for the magnitude. -/
theorem abs_exact (negative : Bool) (whole places : Text) :
    |exact negative whole places| =
      (value (whole ++ places) : ℚ) / (10 ^ places.length : Nat) := by
  have least : (0 : ℚ) ≤ (value (whole ++ places) : ℚ) / (10 ^ places.length : Nat) := by
    positivity
  rw [exact_eq, abs_mul, abs_of_nonneg least]
  cases negative <;> simp

/-- A fraction has no nearest finite number exactly from the middle between the largest one and the
power of two after it on. -/
theorem nearest?_eq_none_iff (negative : Bool) (numerator : Nat) {denominator : Nat}
    (positive : 0 < denominator) :
    Binary64.nearest? negative numerator denominator = none ↔
      (2 ^ 1024 - 2 ^ 970 : ℚ) ≤ numerator / denominator := by
  have limit : (Binary64.overflow : ℚ) = 2 ^ 1024 - 2 ^ 970 := by
    rw [Binary64.overflow, Nat.cast_sub (Nat.pow_le_pow_right (by norm_num) (by norm_num))]
    simp only [Nat.cast_pow, Nat.cast_ofNat]
  have divides : (0 : ℚ) < denominator := by exact_mod_cast positive
  have found := Binary64.nearest?_isSome_iff negative numerator positive
  rw [← Option.not_isSome_iff_eq_none, found, not_lt, ← limit, le_div_iff₀ divides]
  exact_mod_cast Iff.rfl

/-- A numeral with a point is read as the number nearest to what it denotes when this lies below the
limit in magnitude, and is out of range otherwise. -/
theorem real_numeral_cases (negative : Bool) {whole places : Text} (shaped : IsNumeral whole)
    (placed : IsNumeral places) :
    (|exact negative whole places| < 2 ^ 1024 - 2 ^ 970 ∧ ∃ number,
      Binary64.nearest? negative (value (whole ++ places)) (10 ^ places.length) = some number ∧
        real (sign negative ++ (whole ++ point :: places)) = .ok number) ∨
    (2 ^ 1024 - 2 ^ 970 ≤ |exact negative whole places| ∧
      real (sign negative ++ (whole ++ point :: places)) = .error .outOfRange) := by
  have positive : 0 < 10 ^ places.length := Nat.pow_pos (by norm_num)
  have limit := nearest?_eq_none_iff negative (value (whole ++ places)) positive
  rw [abs_exact, real_numeral negative shaped placed]
  cases nearest : Binary64.nearest? negative (value (whole ++ places)) (10 ^ places.length) with
  | none => exact .inr ⟨limit.mp nearest, rfl⟩
  | some number =>
    refine .inl ⟨lt_of_not_ge fun reaches => ?_, number, rfl, rfl⟩
    cases nearest.symm.trans (limit.mpr reaches)

/-! ## Integers -/

variable {text digits : Text} {number : Int}

/-- A digit of the base ten is a decimal digit, as letters stand for more. -/
theorem isDigit_of_digit? {byte : UInt8} {digit : Nat} (found : digit? byte = some digit)
    (small : digit < 10) : isDigit byte := by
  unfold digit? at found
  split at found
  · assumption
  · split at found
    · rename_i letter
      have high := UInt8.le_iff_toNat_le.mp letter.1
      have code : (lower byte).toNat - 87 = digit := Option.some.inj found
      have least : (97 : UInt8).toNat = 97 := rfl
      omega
    · contradiction

/-- Only decimal digits are read. -/
theorem isDigit_of_magnitude {before magnitude : Nat}
    (read : Numeral.magnitude 10 false digits before = .ok magnitude) :
    ∀ byte ∈ digits, isDigit byte := by
  induction digits generalizing before with
  | nil => simp
  | cons byte rest ih =>
    rw [Numeral.magnitude, Bool.false_and, if_neg Bool.false_ne_true] at read
    cases found : digit? byte with
    | none =>
      rw [found] at read
      contradiction
    | some digit =>
      rw [found] at read
      dsimp only at read
      split at read
      · have first := isDigit_of_digit? found ‹_›
        split at read
        · exact List.forall_mem_cons.mpr ⟨first, ih read⟩
        · contradiction
      · contradiction

/-- Splitting off a sign takes away a plus sign, a minus sign or nothing. -/
theorem eq_of_splitSign {negative : Bool} (split : splitSign text = (negative, digits)) :
    text = 43 :: digits ∧ negative = false ∨ text = sign negative ++ digits := by
  unfold splitSign at split
  split at split
  · obtain ⟨rfl, rfl⟩ := Prod.mk.inj split
    exact .inl ⟨rfl, rfl⟩
  · obtain ⟨rfl, rfl⟩ := Prod.mk.inj split
    exact .inr rfl
  · obtain ⟨rfl, rfl⟩ := Prod.mk.inj split
    exact .inr rfl

/-- A plus sign changes nothing. -/
theorem decimal_plus (shaped : IsNumeral digits) : decimal (43 :: digits) = decimal digits := by
  have unsigned := splitSign_numeral false shaped []
  rw [List.append_nil] at unsigned
  have plain : splitSign digits = (false, digits) := unsigned
  have marked : splitSign (43 :: digits) = (false, digits) := rfl
  rw [decimal, decimal, plain, marked]

/-- A signed numeral denotes its digits with the sign. -/
theorem denotes_sign (negative : Bool) (shaped : IsNumeral digits) :
    Denotes (sign negative ++ digits) (signedValue negative (value digits)) := by
  cases negative with
  | true => exact .minus shaped
  | false => exact .unsigned shaped

/-- What is read as an integer is an optional sign and digits. -/
theorem exists_of_decimal (read : decimal text = .ok number) :
    ∃ negative digits, splitSign text = (negative, digits) ∧ IsNumeral digits := by
  rw [decimal] at read
  split at read
  · contradiction
  · rename_i negative digits present split
    refine ⟨negative, digits, split, present, ?_⟩
    cases found : Numeral.magnitude 10 false digits 0 with
    | error fault =>
      rw [found] at read
      contradiction
    | ok magnitude => exact isDigit_of_magnitude found

/-- A signed numeral is read as its number if this is in range. -/
theorem decimal_sign (negative : Bool) (shaped : IsNumeral digits) :
    decimal (sign negative ++ digits) =
      if InRange (signedValue negative (value digits)) then
        .ok (signedValue negative (value digits))
      else .error .outOfRange :=
  decimal_numeral negative shaped

/-- A signed numeral is read exactly when its number fits in 64 bits with sign, and as this number.
-/
theorem decimal_sign_eq_ok_iff (negative : Bool) (shaped : IsNumeral digits) :
    decimal (sign negative ++ digits) = .ok number ↔
      InRange number ∧ number = signedValue negative (value digits) := by
  rw [decimal_sign negative shaped]
  by_cases inside : InRange (signedValue negative (value digits))
  · rw [if_pos inside, Except.ok.injEq]
    constructor
    · rintro rfl
      exact ⟨inside, rfl⟩
    · exact fun same => same.2.symm
  · rw [if_neg inside]
    constructor
    · intro refused
      contradiction
    · rintro ⟨within, rfl⟩
      exact absurd within inside

/-- Read are exactly the optional signs and digits that denote an integer of 64 bits with sign, and
they are read as the integer that they denote. -/
theorem decimal_eq_ok_iff :
    decimal text = .ok number ↔ Denotes text number ∧ InRange number := by
  constructor
  · intro read
    obtain ⟨negative, digits, split, shaped⟩ := exists_of_decimal read
    obtain ⟨rfl, rfl⟩ | rfl := eq_of_splitSign split
    · rw [decimal_plus shaped] at read
      obtain ⟨inside, rfl⟩ := (decimal_sign_eq_ok_iff false shaped).mp read
      exact ⟨.plus shaped, inside⟩
    · obtain ⟨inside, rfl⟩ := (decimal_sign_eq_ok_iff negative shaped).mp read
      exact ⟨denotes_sign negative shaped, inside⟩
  · rintro ⟨denotes, inside⟩
    cases denotes with
    | unsigned shaped => exact (decimal_sign_eq_ok_iff false shaped).mpr ⟨inside, rfl⟩
    | plus shaped =>
      rw [decimal_plus shaped]
      exact (decimal_sign_eq_ok_iff false shaped).mpr ⟨inside, rfl⟩
    | minus shaped => exact (decimal_sign_eq_ok_iff true shaped).mpr ⟨inside, rfl⟩

end Numeral

/-- The converter of integers gives a value to exactly the texts that denote an integer of 64 bits
with sign, and it is the integer that they denote. -/
theorem Converter.convert_integer_eq_ok_iff {text : Text} {value : Option Value} :
    Converter.integer.convert text = .ok value ↔
      ∃ number, Numeral.Denotes text number ∧ Numeral.InRange number ∧
        value = some (.integer number) := by
  simp only [integer]
  cases read : Numeral.decimal text with
  | ok number =>
    constructor
    · intro same
      obtain ⟨denotes, inside⟩ := Numeral.decimal_eq_ok_iff.mp read
      exact ⟨number, denotes, inside, (Except.ok.inj same).symm⟩
    · rintro ⟨other, denotes, inside, rfl⟩
      have again := Numeral.decimal_eq_ok_iff.mpr ⟨denotes, inside⟩
      rw [Except.ok.inj (read.symm.trans again)]
  | error fault =>
    constructor
    · intro same
      contradiction
    · rintro ⟨other, denotes, inside, rfl⟩
      cases read.symm.trans (Numeral.decimal_eq_ok_iff.mpr ⟨denotes, inside⟩)

end Aml
