import Mathlib
import Aml.Proofs.Text.Encoding

/-!
# Graphic texts

A text is graphic when it has only the bytes of printed ASCII without the blank (`Text.IsGraphic`):
it has no newline and no control character. Numbers are written in graphic texts
(`Text.isGraphic_ofInt`). A written character has the newline byte only when it is the newline
(`Text.newline_mem_ofChar`), and hexadecimal digits never have it.
-/
namespace Aml.Text

/-- A byte is the newline only by its value. -/
theorem eq_of_newline_eq_ofNat {value : Nat} (bound : value < 256)
    (same : newline = UInt8.ofNat value) : value = 10 := by
  have values : newline.toNat = (UInt8.ofNat value).toNat := congrArg UInt8.toNat same
  rw [UInt8.toNat_ofNat_of_lt' bound] at values
  exact values.symm

/-- The newline byte spells no other character. -/
theorem newline_mem_ofChar {character : Char} (member : newline ∈ ofChar character) :
    character = '\n' :=
  (leads_ofChar character []).sound.newline_mem_iff.mp member

/-- A text of the bytes of printed ASCII, without blanks. -/
def IsGraphic (text : Text) : Prop :=
  (text.all fun byte => 33 ≤ byte && byte < 127) = true

instance (text : Text) : Decidable text.IsGraphic :=
  inferInstanceAs (Decidable (_ = true))

/-- The bytes of a graphic text are between the blank and the delete character. -/
theorem isGraphic_iff {text : Text} :
    text.IsGraphic ↔ ∀ byte ∈ text, 33 ≤ byte.toNat ∧ byte.toNat < 127 := by
  simp [IsGraphic, UInt8.le_iff_toNat_le, UInt8.lt_iff_toNat_lt]

/-- Two graphic texts in a row are one. -/
theorem IsGraphic.append {left right : Text} (first : left.IsGraphic) (second : right.IsGraphic) :
    (left ++ right).IsGraphic :=
  isGraphic_iff.mpr
    (List.forall_mem_append.mpr ⟨isGraphic_iff.mp first, isGraphic_iff.mp second⟩)

/-- Some bytes of a graphic text, in any order, are one. -/
theorem IsGraphic.of_subset {text part : Text} (graphic : text.IsGraphic) (within : part ⊆ text) :
    part.IsGraphic :=
  isGraphic_iff.mpr fun byte member => isGraphic_iff.mp graphic byte (within member)

/-- A graphic text has no control character. -/
theorem IsGraphic.notMem {text : Text} (graphic : text.IsGraphic) {byte : UInt8}
    (control : byte.toNat < 33) : byte ∉ text := by
  intro member
  have bounds := isGraphic_iff.mp graphic byte member
  omega

/-- A graphic text has no newline. -/
theorem IsGraphic.newline_notMem {text : Text} (graphic : text.IsGraphic) : newline ∉ text :=
  graphic.notMem (by decide)

/-- Decimal digits are graphic. -/
theorem isGraphic_ofNat (value : Nat) : (ofNat value).IsGraphic := by
  refine isGraphic_iff.mpr fun byte member => ?_
  have digit := digit_of_mem_ofNat member
  omega

/-- Integers are graphic. -/
theorem isGraphic_ofInt (value : Int) : (ofInt value).IsGraphic := by
  cases value with
  | ofNat value => exact isGraphic_ofNat value
  | negSucc value =>
    have minus : (ofString "-").IsGraphic := by decide
    exact minus.append (isGraphic_ofNat _)

/-- Hexadecimal digits have no newline. -/
theorem newline_notMem_ofHex (width value : Nat) : newline ∉ ofHex width value := by
  induction width with
  | zero => simp [ofHex]
  | succ width ih =>
    rw [ofHex, List.mem_cons, not_or]
    refine ⟨fun same => ?_, ih⟩
    have digit : value / Nat.pow 16 width % 16 < 16 := Nat.mod_lt _ (by decide)
    unfold hexDigit at same
    split at same
    · have ten := eq_of_newline_eq_ofNat (by omega) same
      omega
    · have ten := eq_of_newline_eq_ofNat (by omega) same
      omega

/-- Zeros are graphic. -/
theorem isGraphic_zeros (count : Nat) : (repeated 48 count).IsGraphic := by
  refine isGraphic_iff.mpr fun byte member => ?_
  rw [List.eq_of_mem_replicate member]
  decide

end Aml.Text
