import Mathlib
import Aml.Proofs.Text.Utf8

/-!
# Laws of encoding

A character is written as the sequence of bytes that spells its value (`spells_ofChar`), so written
characters are read as they are (`characters_written`). The digits of a number tell the number, and
no digit is a minus sign, so the bytes of an integer tell the integer (`ofInt_injective`).
-/
namespace Aml.Text

/-! ## Characters -/

/-- A byte with six payload bits continues a sequence, and has these bits as its payload. -/
theorem isContinuation_ofNat {bits : Nat} (small : bits < 64) :
    isContinuation (UInt8.ofNat (bits + 128)) = true ∧
      payload (UInt8.ofNat (bits + 128)) = bits := by
  have value : (UInt8.ofNat (bits + 128)).toNat = bits + 128 :=
    UInt8.toNat_ofNat_of_lt' (show bits + 128 < 256 by omega)
  constructor
  · simp only [isContinuation, Bool.and_eq_true, decide_eq_true_eq, UInt8.le_iff_toNat_le,
      UInt8.lt_iff_toNat_lt, value]
    exact ⟨Nat.le_add_left _ _, Nat.add_lt_add_right small _⟩
  · rw [payload, value]
    omega

/-- The bytes of a character spell its value. -/
theorem spells_ofChar (character : Char) : Spells (ofChar character) character.toNat := by
  have valid : character.toNat < 0xD800 ∨ 0xDFFF < character.toNat ∧ character.toNat < 0x110000 :=
    character.valid
  have byte {value : Nat} (small : value < 256) : (UInt8.ofNat value).toNat = value :=
    UInt8.toNat_ofNat_of_lt' small
  have values : character.val.toNat = character.toNat := rfl
  unfold ofChar String.utf8EncodeChar
  dsimp only
  rw [values]
  generalize character.toNat = value at valid
  -- The lead byte has the bits that are left over by the payloads of the others.
  split_ifs with one two three
  · have ascii := byte (show value < 256 by omega)
    have spelled := @Spells.one (UInt8.ofNat value) (by omega)
    rwa [ascii] at spelled
  · have lead := byte (show value / 64 % 32 + 192 < 256 by omega)
    have second := isContinuation_ofNat (show value % 64 < 64 by omega)
    have spelled := @Spells.two (UInt8.ofNat (value / 64 % 32 + 192)) _ (by omega) (by omega)
      second.1
    have whole : (value / 64 % 32 + 192 - 0xC0) * 64 + value % 64 = value := by omega
    rwa [lead, second.2, whole] at spelled
  · have lead := byte (show value / 4096 % 16 + 224 < 256 by omega)
    have second := isContinuation_ofNat (show value / 64 % 64 < 64 by omega)
    have third := isContinuation_ofNat (show value % 64 < 64 by omega)
    refine .three (by omega) (by omega) second.1 third.1 ?_ (by omega) (by omega)
    rw [lead, second.2, third.2]
    omega
  · have lead := byte (show value / 262144 % 8 + 240 < 256 by omega)
    have second := isContinuation_ofNat (show value / 4096 % 64 < 64 by omega)
    have third := isContinuation_ofNat (show value / 64 % 64 < 64 by omega)
    have fourth := isContinuation_ofNat (show value % 64 < 64 by omega)
    refine .four (by omega) (by omega) second.1 third.1 fourth.1 ?_ (by omega) (by omega)
    rw [lead, second.2, third.2, fourth.2]
    omega

/-- Bytes that spell the value of a character are the bytes of the character. -/
theorem Spells.eq_ofChar {bytes : Text} {character : Char}
    (spelled : Spells bytes character.toNat) : bytes = ofChar character :=
  spelled.eq_sequence.trans (spells_ofChar character).eq_sequence.symm

/-- A written character is read as it is. -/
theorem leads_ofChar (character : Char) (rest : Text) :
    Leads ⟨character, ofChar character⟩ rest := by
  have read := Leads.spelled (spells_ofChar character) rest
  rwa [Char.ofNat_toNat] at read

/-- Written characters are read as they are. -/
theorem characters_written (characters : List Char) :
    Text.characters (characters.flatMap ofChar) =
      characters.map fun character => ⟨character, ofChar character⟩ := by
  induction characters with
  | nil => rfl
  | cons first rest ih =>
    rw [List.flatMap_cons, (leads_ofChar first _).characters, ih, List.map_cons]

/-- Written characters are told by their bytes. -/
theorem written_injective :
    Function.Injective fun characters : List Char => characters.flatMap ofChar := by
  have decoded : Function.LeftInverse (fun text => (Text.characters text).map Character.scalar)
      fun characters => characters.flatMap ofChar := by
    intro characters
    dsimp only
    rw [characters_written, List.map_map]
    exact List.map_id characters
  exact decoded.injective

/-! ## Numbers -/

/-- A number is told by its digits. -/
theorem ofNat_injective : Function.Injective ofNat := by
  intro left right same
  have digits : Nat.toDigits 10 left = Nat.toDigits 10 right := written_injective same
  calc
    left = Nat.ofDigitChars 10 (Nat.toDigits 10 left) 0 :=
      (Nat.ofDigitChars_toDigits (by decide) (by decide)).symm
    _ = Nat.ofDigitChars 10 (Nat.toDigits 10 right) 0 := by rw [digits]
    _ = right := Nat.ofDigitChars_toDigits (by decide) (by decide)

/-- The bytes of a number are digits. -/
theorem digit_of_mem_ofNat {value : Nat} {byte : UInt8} (member : byte ∈ ofNat value) :
    48 ≤ byte.toNat ∧ byte.toNat < 58 := by
  obtain ⟨digit, listed, spelled⟩ := List.mem_flatMap.mp member
  have numeric := Nat.isDigit_of_mem_toDigits (by decide) (by decide) listed
  have bounds : 48 ≤ digit.toNat ∧ digit.toNat ≤ 57 := by
    simpa [Char.isDigit, UInt32.le_iff_toNat_le] using numeric
  rw [ofChar_ascii (by omega), List.mem_singleton] at spelled
  rw [spelled, UInt8.toNat_ofNat_of_lt' (show digit.toNat < 256 by omega)]
  omega

/-- The bytes of an integer are digits or a minus sign. -/
theorem le_of_mem_ofInt {value : Int} {byte : UInt8} (member : byte ∈ ofInt value) :
    45 ≤ byte.toNat := by
  cases value with
  | ofNat value =>
    have digit := digit_of_mem_ofNat member
    omega
  | negSucc value =>
    obtain minus | digits := List.mem_append.mp member
    · obtain rfl : byte = 45 := List.mem_singleton.mp minus
      decide
    · have digit := digit_of_mem_ofNat digits
      omega

/-- An integer is told by its bytes. -/
theorem ofInt_injective : Function.Injective ofInt := by
  have unsigned {natural value : Nat} : ofNat natural ≠ ofString "-" ++ ofNat value := by
    intro same
    have minus : 45 ∈ ofNat natural := same ▸ List.mem_append_left _ (by decide)
    exact absurd (digit_of_mem_ofNat minus).1 (by decide)
  intro left right same
  cases left with
  | ofNat left =>
    cases right with
    | ofNat right => exact congrArg Int.ofNat (ofNat_injective same)
    | negSucc right => exact absurd same unsigned
  | negSucc left =>
    cases right with
    | ofNat right => exact absurd same.symm unsigned
    | negSucc right =>
      have values := ofNat_injective (List.append_cancel_left same)
      exact congrArg Int.negSucc (Nat.succ.inj values)

end Aml.Text
