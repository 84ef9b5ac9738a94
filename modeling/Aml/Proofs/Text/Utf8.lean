import Mathlib
import Aml.Proofs.Text.Place

/-!
# Well-formed texts

In a well-formed text no byte stands for the replacement character by itself, so every character is
spelled by its bytes. Well-formed texts stay so when they are joined (`isUtf8_append`) and when they
are cut between characters (`isUtf8_cut`). A value is spelled by one sequence only
(`Spells.eq_sequence`), so the values of a well-formed text tell its bytes: when the values of one
start those of another, so do the characters (`characters_prefix`) and the bytes.
-/
namespace Aml.Text

/-- A byte that continues a sequence is known by its payload. -/
theorem toNat_of_isContinuation {byte : UInt8} (continues : isContinuation byte = true) :
    byte.toNat = 128 + payload byte := by
  simp only [isContinuation, Bool.and_eq_true, decide_eq_true_eq, UInt8.le_iff_toNat_le,
    UInt8.lt_iff_toNat_lt] at continues
  have least : 128 ≤ byte.toNat := continues.1
  have most : byte.toNat < 192 := continues.2
  rw [payload]
  omega

/-- An ASCII character is spelled by one byte. -/
theorem ofChar_ascii {character : Char} (ascii : character.toNat < 0x80) :
    ofChar character = [UInt8.ofNat character.toNat] := by
  have small : character.val.toNat ≤ 0x7F := Nat.le_of_lt_succ ascii
  simp only [ofChar, String.utf8EncodeChar, if_pos small]
  rfl

/-- The bytes that spell a scalar value. -/
def sequence (value : Nat) : Text :=
  if value < 0x80 then [UInt8.ofNat value]
  else if value < 0x800 then
    [UInt8.ofNat (0xC0 + value / 64), UInt8.ofNat (0x80 + value % 64)]
  else if value < 0x10000 then
    [UInt8.ofNat (0xE0 + value / 4096), UInt8.ofNat (0x80 + value / 64 % 64),
      UInt8.ofNat (0x80 + value % 64)]
  else
    [UInt8.ofNat (0xF0 + value / 262144), UInt8.ofNat (0x80 + value / 4096 % 64),
      UInt8.ofNat (0x80 + value / 64 % 64), UInt8.ofNat (0x80 + value % 64)]

/-- A byte is the one of its value. -/
theorem eq_ofNat_of_toNat {byte : UInt8} {value : Nat} (same : byte.toNat = value) :
    byte = UInt8.ofNat value := by
  rw [← same, UInt8.ofNat_toNat]

/-- The bytes of a sequence are those of the value that it spells. -/
theorem Spells.eq_sequence {bytes : Text} {value : Nat} (spelled : Spells bytes value) :
    bytes = sequence value := by
  -- The payloads are the digits of the value to the base 64, and the lead byte has the rest.
  cases spelled with
  | one ascii => rw [sequence, if_pos ascii, UInt8.ofNat_toNat]
  | @two lead second least most follows =>
    have tail := toNat_of_isContinuation follows
    have bound := payload_lt second
    rw [sequence, if_neg (by omega), if_pos (by omega),
      ← @eq_ofNat_of_toNat lead _ (by omega), ← @eq_ofNat_of_toNat second _ (by omega)]
  | @three lead second third _ least most follows ends equal large allowed =>
    have middle := toNat_of_isContinuation follows
    have tail := toNat_of_isContinuation ends
    have bound := payload_lt second
    have limit := payload_lt third
    rw [sequence, if_neg (by omega), if_neg (by omega), if_pos (by omega),
      ← @eq_ofNat_of_toNat lead _ (by omega), ← @eq_ofNat_of_toNat second _ (by omega),
      ← @eq_ofNat_of_toNat third _ (by omega)]
  | @four lead second third fourth _ least most follows goesOn ends equal large allowed =>
    have middle := toNat_of_isContinuation follows
    have inner := toNat_of_isContinuation goesOn
    have tail := toNat_of_isContinuation ends
    have bound := payload_lt second
    have limit := payload_lt third
    have border := payload_lt fourth
    rw [sequence, if_neg (by omega), if_neg (by omega), if_neg (by omega),
      ← @eq_ofNat_of_toNat lead _ (by omega), ← @eq_ofNat_of_toNat second _ (by omega),
      ← @eq_ofNat_of_toNat third _ (by omega), ← @eq_ofNat_of_toNat fourth _ (by omega)]

/-- A character that is not malformed is spelled by its bytes. -/
theorem Leads.spells {first : Character} {rest : Text} (leads : Leads first rest)
    (formed : first.isMalformed = false) : Spells first.bytes first.scalar.toNat := by
  cases leads with
  | spelled spelled => simpa only [spelled.toNat_ofNat] using spelled
  | stray => simp [Character.isMalformed] at formed

/-- The characters of a well-formed text are spelled by their bytes. -/
theorem spells_of_isUtf8 {text : Text} (formed : text.isUtf8 = true) :
    ∀ character ∈ text.characters, Spells character.bytes character.scalar.toNat := by
  induction text using induction_on_characters with
  | nil => simp
  | cons first rest leads ih =>
    rw [isUtf8, leads.characters, List.all_cons, Bool.and_eq_true, Bool.not_eq_true'] at formed
    rw [leads.characters]
    exact List.forall_mem_cons.mpr ⟨leads.spells formed.1, ih formed.2⟩

/-- A well-formed text meets every text between characters. -/
theorem meets_of_isUtf8 {left : Text} (formed : left.isUtf8 = true) (right : Text) :
    Meets left right := by
  induction left using induction_on_characters with
  | nil => rfl
  | cons first rest leads ih =>
    rw [isUtf8, leads.characters, List.all_cons, Bool.and_eq_true, Bool.not_eq_true'] at formed
    have goesOn : Leads first (rest ++ right) := by
      have spelled := Leads.spelled (leads.spells formed.1) (rest ++ right)
      rwa [Char.ofNat_toNat] at spelled
    rw [Meets, List.append_assoc, goesOn.characters, ih formed.2, leads.characters,
      List.cons_append]

/-- Two well-formed texts in a row are well-formed. -/
theorem isUtf8_append {left right : Text} (one : left.isUtf8 = true)
    (other : right.isUtf8 = true) : Text.isUtf8 (left ++ right) = true := by
  rw [isUtf8, meets_of_isUtf8 one right, List.all_append, Bool.and_eq_true]
  exact ⟨one, other⟩

/-- A well-formed text that is cut on a boundary has well-formed parts. -/
theorem isUtf8_cut {text : Text} {offset : Nat} (formed : text.isUtf8 = true)
    (boundary : text.IsBoundary offset) :
    Text.isUtf8 (text.take offset) = true ∧ Text.isUtf8 (text.drop offset) = true := by
  obtain ⟨before, after, whole, rfl⟩ := boundary
  rw [isUtf8, whole, List.all_append, Bool.and_eq_true] at formed
  constructor
  · rw [take_of_characters whole, isUtf8, characters_ofCharacters_left whole]
    exact formed.1
  · rw [drop_of_characters whole, isUtf8, characters_ofCharacters_right whole]
    exact formed.2

/-- A text without a malformed part is well-formed. -/
theorem isUtf8_of_malformedSuffix? {text : Text} (none : text.malformedSuffix? = none) :
    text.isUtf8 = true := by
  obtain ⟨sound, rest, split, formed⟩ : ∃ sound rest, text.characters = sound ++ rest ∧
      sound = text.characters.takeWhile (!·.isMalformed) :=
    ⟨_, _, List.takeWhile_append_dropWhile.symm, rfl⟩
  have whole : text = ofCharacters sound ++ ofCharacters rest := by
    rw [← ofCharacters_append, ← split, ofCharacters_characters]
  have dropped : text.drop (ofCharacters sound).length = ofCharacters rest := by
    conv_lhs => rw [whole]
    exact List.drop_left
  rw [malformedSuffix?] at none
  simp only [← formed, dropped] at none
  have nothing : rest = [] := by
    cases rest with
    | nil => rfl
    | cons first others =>
      have present : first.bytes ≠ [] :=
        (text.sound_of_mem_characters first (by simp [split])).ne_nil
      obtain ⟨byte, bytes, spelled⟩ := List.exists_cons_of_ne_nil present
      rw [ofCharacters_cons, spelled] at none
      contradiction
  rw [isUtf8, split, nothing, List.append_nil, formed, List.all_takeWhile]

/-- Characters that are spelled by their bytes are known by their values. -/
theorem prefix_of_spells {left right : List Character}
    (one : ∀ character ∈ left, Spells character.bytes character.scalar.toNat)
    (other : ∀ character ∈ right, Spells character.bytes character.scalar.toNat)
    (starts : left.map Character.scalar <+: right.map Character.scalar) : left <+: right := by
  induction left generalizing right with
  | nil => exact List.nil_prefix
  | cons first rest ih =>
    cases right with
    | nil => simp at starts
    | cons character others =>
      rw [List.map_cons, List.map_cons, List.cons_prefix_cons] at starts
      obtain ⟨same, later⟩ := starts
      obtain ⟨spelled, known⟩ := List.forall_mem_cons.mp one
      obtain ⟨written, alike⟩ := List.forall_mem_cons.mp other
      have bytes : first.bytes = character.bytes := by
        rw [spelled.eq_sequence, written.eq_sequence, same]
      have equal : first = character := by
        cases first
        cases character
        exact Character.mk.injEq .. |>.mpr ⟨same, bytes⟩
      rw [equal, List.cons_prefix_cons]
      exact ⟨rfl, ih known alike later⟩

/-- When the values of a well-formed text start those of another, so do its characters. -/
theorem characters_prefix {left right : Text} (one : left.isUtf8 = true)
    (other : right.isUtf8 = true)
    (starts : left.characters.map Character.scalar <+: right.characters.map Character.scalar) :
    left.characters <+: right.characters :=
  prefix_of_spells (spells_of_isUtf8 one) (spells_of_isUtf8 other) starts

/-- A text whose characters start those of another is a prefix of it. -/
theorem prefix_of_characters {left right : Text}
    (starts : left.characters <+: right.characters) : left <+: right := by
  obtain ⟨rest, whole⟩ := starts
  rw [← left.ofCharacters_characters, eq_append_of_characters whole.symm]
  exact List.prefix_append _ _

end Aml.Text
