import Mathlib
import Aml.Proofs.Text.Utf8
import Aml.Yaml.Source
import Aml.Yaml.Token

/-!
# Printed ASCII as a YAML source

A text of printed ASCII and newlines is a YAML source as it stands: each byte is a character that
may stand there, and no line break has to be read as another one (`source?_of_printed`). Scalars
give the bytes back (`textOf_map`).
-/
namespace Aml.Yaml

/-- The character with the value of a byte. -/
def charOf (byte : UInt8) : Char :=
  Char.ofNat byte.toNat

/-- A newline or a byte of printed ASCII. -/
def IsPrinted (byte : UInt8) : Prop :=
  (byte = 10 || 32 ≤ byte && byte < 127) = true

instance : DecidablePred IsPrinted :=
  fun _ => inferInstanceAs (Decidable (_ = true))

/-- Printed bytes are newlines, or they are between blanks and the delete character. -/
theorem isPrinted_iff {byte : UInt8} :
    IsPrinted byte ↔ byte.toNat = 10 ∨ 32 ≤ byte.toNat ∧ byte.toNat < 127 := by
  simp [IsPrinted, UInt8.le_iff_toNat_le, UInt8.lt_iff_toNat_lt, ← UInt8.toNat_inj]

/-- A byte of ASCII is the value of its character. -/
theorem toNat_charOf {byte : UInt8} (ascii : byte.toNat < 0x80) :
    (charOf byte).toNat = byte.toNat :=
  Character.ofByte_toNat ascii

/-- Printed bytes are ASCII. -/
theorem IsPrinted.ascii {byte : UInt8} (printed : IsPrinted byte) : byte.toNat < 0x80 := by
  have bounds := isPrinted_iff.mp printed
  omega

/-- The characters of ASCII bytes spell them again. -/
theorem textOf_map {text : Text} (ascii : ∀ byte ∈ text, byte.toNat < 0x80) :
    textOf (text.map charOf) = text := by
  induction text with
  | nil => rfl
  | cons byte rest ih =>
    obtain ⟨first, others⟩ := List.forall_mem_cons.mp ascii
    have value := toNat_charOf first
    have spelled : Text.ofChar (charOf byte) = [byte] := by
      rw [Text.ofChar_ascii (by omega), value, UInt8.ofNat_toNat]
    have later : (rest.map charOf).flatMap Text.ofChar = rest := ih others
    rw [textOf, List.map_cons, List.flatMap_cons, spelled, later, List.singleton_append]

/-- A printed text is in UTF-8. -/
theorem isUtf8_of_printed {text : Text} (printed : ∀ byte ∈ text, IsPrinted byte) :
    text.isUtf8 = true := by
  rw [Text.isUtf8, Text.characters_of_ascii fun byte member => (printed byte member).ascii,
    List.all_eq_true, List.forall_mem_map]
  intro byte member
  have value := toNat_charOf (printed byte member).ascii
  have sound : (Character.ofByte byte).scalar ≠ Character.replacement := by
    intro same
    have large : (charOf byte).toNat = 0xFFFD := congrArg Char.toNat same
    have ascii := (printed byte member).ascii
    omega
  simp [Character.isMalformed, sound]

/-- A printed text starts with no byte order mark. -/
theorem decode?_of_printed {text : Text} (printed : ∀ byte ∈ text, IsPrinted byte) :
    decode? text = some (text.map charOf) := by
  have ascii : ∀ byte ∈ text, byte.toNat < 0x80 := fun byte member => (printed byte member).ascii
  have marked : decode? text = ofUtf8? text := by
    unfold decode?
    split
    · exact absurd (ascii 0xFF (by simp)) (by decide)
    · exact absurd (ascii 0xFE (by simp)) (by decide)
    · exact absurd (ascii 0xEF (by simp)) (by decide)
    · rfl
  rw [marked, ofUtf8?, if_pos (isUtf8_of_printed printed), Text.characters_of_ascii ascii,
    List.map_map]
  rfl

/-- Characters without carriage returns and next-line characters are read as they stand. -/
theorem withNewlines_eq {characters : List Char}
    (plain : ∀ character ∈ characters, character ≠ '\r' ∧ character ≠ Char.ofNat 0x85) :
    withNewlines characters = characters := by
  induction characters with
  | nil => rfl
  | cons first rest ih =>
    obtain ⟨⟨noReturn, noNext⟩, others⟩ := List.forall_mem_cons.mp plain
    rw [withNewlines, ih others]
    · simp [noReturn, noNext]
    · intro _ same
      exact absurd same noReturn

/-- A printed byte may stand in a source. -/
theorem IsPrinted.isAllowed {byte : UInt8} (printed : IsPrinted byte) :
    isAllowed (charOf byte) = true := by
  rw [Yaml.isAllowed, toNat_charOf printed.ascii]
  rcases isPrinted_iff.mp printed with newline | ⟨least, most⟩
  · simp [newline]
  · have range : 0x20 ≤ byte.toNat ∧ byte.toNat ≤ 0x7E := ⟨least, Nat.le_of_lt_succ most⟩
    simp [range]

/-- A printed byte is no line break that is read as another one. -/
theorem IsPrinted.ne_break {byte : UInt8} (printed : IsPrinted byte) :
    charOf byte ≠ '\r' ∧ charOf byte ≠ Char.ofNat 0x85 := by
  have value := toNat_charOf printed.ascii
  have bounds := isPrinted_iff.mp printed
  constructor
  · refine ne_of_apply_ne Char.toNat ?_
    have returns : '\r'.toNat = 13 := rfl
    omega
  · refine ne_of_apply_ne Char.toNat ?_
    have nextLine : (Char.ofNat 0x85).toNat = 0x85 := rfl
    omega

/-- A printed text is a source as it stands. -/
theorem source?_of_printed {text : Text} (printed : ∀ byte ∈ text, IsPrinted byte) :
    source? text = some (text.map charOf) := by
  have allowed : (text.map charOf).all isAllowed = true :=
    List.all_eq_true.mpr
      (List.forall_mem_map.mpr fun byte member => (printed byte member).isAllowed)
  have plain : ∀ character ∈ text.map charOf,
      character ≠ '\r' ∧ character ≠ Char.ofNat 0x85 :=
    List.forall_mem_map.mpr fun byte member => (printed byte member).ne_break
  rw [source?, decode?_of_printed printed, Option.bind_eq_bind, Option.bind_some, if_pos allowed,
    withNewlines_eq plain]

end Aml.Yaml
