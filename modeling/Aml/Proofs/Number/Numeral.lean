import Mathlib
import Aml.Number.Real
import Aml.Proofs.Number.Binary64

/-!
# What numerals denote

`Numeral.value` is the number that decimal digits denote, and a numeral of digits with an optional
minus sign is read as that number: an integer when it is in the range of 64 bits with sign
(`Numeral.decimal_numeral`), a real as the double precision number nearest to the fraction that
its digits and places denote (`Numeral.real_numeral`). Out of range is the only way in which such
numerals fail.
-/
namespace Aml.Numeral

/-- The number that decimal digits denote. -/
def value (digits : Text) : Nat :=
  Nat.ofDigits 10 (digits.reverse.map fun byte => byte.toNat - 48)

/-- A minus sign when the number is negative. -/
def sign (negative : Bool) : Text :=
  if negative then [45] else []

/-- A magnitude with its sign. -/
def signedValue (negative : Bool) (magnitude : Nat) : Int :=
  if negative then -(magnitude : Int) else magnitude

/-- Decimal digits, at least one. -/
structure IsNumeral (digits : Text) : Prop where
  /-- There is a digit. -/
  present : digits ≠ []
  /-- There is nothing else. -/
  numeric : ∀ byte ∈ digits, isDigit byte

/-- The first digit counts for its place. -/
theorem value_cons (byte : UInt8) (rest : Text) :
    value (byte :: rest) = (byte.toNat - 48) * 10 ^ rest.length + value rest := by
  rw [value, List.reverse_cons, List.map_append, Nat.ofDigits_append, List.length_map,
    List.length_reverse, List.map_singleton, Nat.ofDigits_singleton, Nat.add_comm, Nat.mul_comm]
  rfl

/-- Digits in front count for their places. -/
theorem value_append (left right : Text) :
    value (left ++ right) = value left * 10 ^ right.length + value right := by
  induction left with
  | nil => simp [value]
  | cons byte rest ih =>
    rw [List.cons_append, value_cons, value_cons, ih, List.length_append, pow_add]
    ring

/-- The values of digits. -/
theorem isDigit_iff {byte : UInt8} : isDigit byte ↔ 48 ≤ byte.toNat ∧ byte.toNat ≤ 57 := by
  simp [isDigit, UInt8.le_iff_toNat_le]

/-- A digit stands for its distance from zero. -/
theorem digit?_of_isDigit {byte : UInt8} (numeric : isDigit byte) :
    digit? byte = some (byte.toNat - 48) := by
  rw [digit?, if_pos numeric]

/-- Digits are read as the number they denote, after those before them, while it is below
2 ^ 64. -/
theorem magnitude_digits {digits : Text} (numeric : ∀ byte ∈ digits, isDigit byte) {before : Nat}
    (small : before < Nat.pow 2 64) :
    magnitude 10 false digits before =
      if before * 10 ^ digits.length + value digits < Nat.pow 2 64 then
        .ok (before * 10 ^ digits.length + value digits)
      else .error .outOfRange := by
  induction digits generalizing before with
  | nil =>
    have same : before * 10 ^ ([] : Text).length + value [] = before := by simp [value]
    rw [same, if_pos small, magnitude]
  | cons byte rest ih =>
    obtain ⟨first, others⟩ := List.forall_mem_cons.mp numeric
    have bounds := isDigit_iff.mp first
    have total : before * 10 ^ (byte :: rest).length + value (byte :: rest) =
        (before * 10 + (byte.toNat - 48)) * 10 ^ rest.length + value rest := by
      rw [value_cons, List.length_cons, pow_succ]
      ring
    rw [total, magnitude, digit?_of_isDigit first]
    simp only [Bool.false_and, Bool.false_eq_true, if_false]
    rw [if_pos (by omega)]
    split
    · exact ih others ‹_›
    · have least : before * 10 + (byte.toNat - 48) ≤
          (before * 10 + (byte.toNat - 48)) * 10 ^ rest.length :=
        Nat.le_mul_of_pos_right _ (Nat.pow_pos (by norm_num))
      rw [if_neg (by omega)]

/-- A sign in front of digits is split off. -/
theorem splitSign_numeral (negative : Bool) {digits : Text} (shaped : IsNumeral digits)
    (rest : Text) : splitSign (sign negative ++ (digits ++ rest)) = (negative, digits ++ rest) := by
  cases negative with
  | true => rfl
  | false =>
    obtain ⟨byte, others, rfl⟩ := List.exists_cons_of_ne_nil shaped.present
    have bounds := isDigit_iff.mp (shaped.numeric byte List.mem_cons_self)
    rw [sign, if_neg (by simp), List.nil_append, List.cons_append]
    unfold splitSign
    split
    · simp_all
    · simp_all
    · rfl

/-- A decimal numeral is read as the integer it denotes, if that fits in 64 bits with sign. -/
theorem decimal_numeral (negative : Bool) {digits : Text} (shaped : IsNumeral digits) :
    decimal (sign negative ++ digits) =
      if -2 ^ 63 ≤ signedValue negative (value digits) ∧
          signedValue negative (value digits) < 2 ^ 63 then
        .ok (signedValue negative (value digits))
      else .error .outOfRange := by
  have split := splitSign_numeral negative shaped []
  have read := magnitude_digits shaped.numeric (Nat.pow_pos (by norm_num) : 0 < Nat.pow 2 64)
  obtain ⟨first, others, rfl⟩ := List.exists_cons_of_ne_nil shaped.present
  rw [Nat.zero_mul, Nat.zero_add] at read
  rw [List.append_nil] at split
  rw [decimal, split]
  simp only [read]
  generalize value (first :: others) = number
  have half : Nat.pow 2 63 = 9223372036854775808 := by rfl
  have whole : Nat.pow 2 64 = 18446744073709551616 := by rfl
  rw [whole]
  by_cases fits : number < 18446744073709551616
  · rw [if_pos fits]
    cases negative with
    | true =>
      simp only [signed, signedValue, if_true, half]
      split_ifs <;> first | rfl | omega
    | false =>
      simp only [signed, signedValue, Bool.false_eq_true, if_false, half]
      split_ifs <;> first | rfl | omega
  · rw [if_neg fits, if_neg]
    cases negative with
    | true => simp only [signedValue, if_true]; omega
    | false => simp only [signedValue, Bool.false_eq_true, if_false]; omega

/-! ## Reals -/

/-- Digits are pushed one after the other. -/
theorem digitsOf_digits {digits : Text} (numeric : ∀ byte ∈ digits, isDigit byte) (rest : Text)
    (state : Digits) :
    digitsOf 10 (digits ++ rest) state =
      digitsOf 10 rest
        { value := state.value * 10 ^ digits.length + value digits
          places := if state.pointed then state.places + digits.length else state.places
          pointed := state.pointed
          present := state.present || !digits.isEmpty } := by
  induction digits generalizing state with
  | nil => simp [value]
  | cons byte others ih =>
    obtain ⟨first, later⟩ := List.forall_mem_cons.mp numeric
    have bounds := isDigit_iff.mp first
    have separator : byte ≠ underscore := by
      rintro rfl
      contradiction
    have point : byte ≠ 46 := by
      rintro rfl
      contradiction
    rw [List.cons_append, digitsOf, if_neg separator, if_neg point, if_pos (by simp [first]),
      ih later, digit?_of_isDigit first, Option.getD_some, Digits.push]
    congr 1
    simp only [value_cons, List.length_cons, List.isEmpty_cons, Bool.not_false, Bool.or_true,
      Bool.true_or, Digits.mk.injEq, and_true]
    constructor
    · rw [pow_succ]
      ring
    · split <;> omega

/-- The byte of the point. -/
def point : UInt8 := 46

/-- The bytes of numerals come before those of letters. -/
theorem le_of_mem_numeral {whole places : Text} (shaped : IsNumeral whole)
    (placed : IsNumeral places) : ∀ byte ∈ whole ++ point :: places, byte.toNat ≤ 57 := by
  have small {digits : Text} (shaped : IsNumeral digits) : ∀ byte ∈ digits, byte.toNat ≤ 57 :=
    fun byte member => (isDigit_iff.mp (shaped.numeric byte member)).2
  refine List.forall_mem_append.mpr ⟨small shaped, List.forall_mem_cons.mpr ⟨?_, small placed⟩⟩
  decide

/-- Bytes before those of letters are not letters in lower case either. -/
theorem lower_lt {byte : UInt8} (small : byte.toNat ≤ 57) : (lower byte).toNat ≤ 63 := by
  rw [lower, UInt8.toNat_or]
  have bound : byte.toNat ||| 32 < 2 ^ 6 := Nat.or_lt_two_pow (by omega) (by norm_num)
  exact Nat.le_of_lt_succ bound

/-- A text without letters starts no hexadecimal numeral. -/
theorem isHexadecimal_eq_false {text : Text} (small : ∀ byte ∈ text, byte.toNat ≤ 57) :
    isHexadecimal text = false := by
  unfold isHexadecimal
  split
  · rename_i letter _ _
    have bound := lower_lt (small letter (by simp))
    rw [decide_eq_false_iff_not]
    intro same
    rw [same] at bound
    contradiction
  · rfl

/-- Digits around a point denote a fraction. -/
theorem magnitude?_numeral {whole places : Text} (shaped : IsNumeral whole)
    (placed : IsNumeral places) :
    magnitude? (whole ++ point :: places) = some (value (whole ++ places), 10 ^ places.length) := by
  have plain := isHexadecimal_eq_false (le_of_mem_numeral shaped placed)
  have read : digitsOf 10 (whole ++ point :: places) {} =
      (⟨value (whole ++ places), places.length, true, true⟩, []) := by
    have last := digitsOf_digits placed.numeric []
    rw [List.append_nil] at last
    rw [digitsOf_digits shaped.numeric, digitsOf, if_neg (by decide), if_pos (by decide)]
    simp [last, digitsOf, value_append, shaped.present]
  unfold magnitude?
  simp [plain, read]

/-- A text without letters is no word, in any case. -/
theorem map_lower_ne {text word : Text} (small : ∀ byte ∈ text, byte.toNat ≤ 57)
    (letter : UInt8) (rest : Text) (spelled : word = letter :: rest) (high : 63 < letter.toNat) :
    text.map lower ≠ word := by
  intro same
  rw [spelled] at same
  obtain ⟨byte, others, rfl, rfl, _⟩ := List.map_eq_cons_iff.mp same
  exact absurd (lower_lt (small byte List.mem_cons_self)) (by omega)

/-- A numeral with a point is read as the number nearest to the fraction it denotes, if there is
one. -/
theorem real_numeral (negative : Bool) {whole places : Text} (shaped : IsNumeral whole)
    (placed : IsNumeral places) :
    real (sign negative ++ (whole ++ point :: places)) =
      match Binary64.nearest? negative (value (whole ++ places)) (10 ^ places.length) with
      | some number => .ok number
      | none => .error .outOfRange := by
  have unsigned := le_of_mem_numeral shaped placed
  have small : ∀ byte ∈ sign negative ++ (whole ++ point :: places), byte.toNat ≤ 57 := by
    refine List.forall_mem_append.mpr ⟨?_, unsigned⟩
    cases negative <;> simp [sign]
  have separators : (sign negative ++ (whole ++ point :: places)).contains underscore = false := by
    rw [List.contains_eq_mem, decide_eq_false_iff_not]
    intro member
    exact absurd (small underscore member) (by decide)
  have split := splitSign_numeral negative shaped (point :: places)
  have wordless : word? (sign negative ++ (whole ++ point :: places)) = none := by
    rw [word?, split]
    dsimp only
    rw [if_neg, if_neg]
    · exact map_lower_ne small 110 [97, 110] rfl (by decide)
    · rintro (same | same)
      · exact map_lower_ne unsigned 105 [110, 102] rfl (by decide) same
      · exact map_lower_ne unsigned 105 [110, 102, 105, 110, 105, 116, 121] rfl (by decide) same
  rw [real, wordless, split]
  dsimp only
  rw [magnitude?_numeral shaped placed, separators]
  rw [Bool.false_and]
  rfl

end Aml.Numeral
