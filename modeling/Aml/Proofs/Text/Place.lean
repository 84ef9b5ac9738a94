import Mathlib
import Aml.Proofs.Position

/-!
# Places of a text

A place lies between two characters of a text, or at one of its ends. `Text.Place` shows it by the
characters around it: those of the lines above, those of its own line before it, and those after
it. Everything that a position says about a place is read off these characters. The offsets of
places are the boundaries between characters (`Text.isBoundary_iff`), the bytes before a place are
the first bytes of the text (`Place.take_offset`), and the last line of these bytes is what stands
before the place on its line (`Place.lastLine_before`). So a position that has read the bytes before
a place counts its lines and its characters (`Place.start_advance`).
-/
namespace Aml

/-! ## Code units -/

/-- The number of UTF-16 code units of characters in a row. -/
def Character.totalUnits (characters : List Character) : Nat :=
  (characters.map Character.units).sum

/-- A character has a code unit. -/
theorem Character.units_pos (character : Character) : 0 < character.units := by
  unfold units
  split <;> decide

/-- The code units of characters in a row add up. -/
theorem Character.totalUnits_append (left right : List Character) :
    totalUnits (left ++ right) = totalUnits left + totalUnits right := by
  simp [totalUnits]

namespace Text

/-- The code units of a text are those of its characters. -/
theorem units_eq (text : Text) : text.units = Character.totalUnits text.characters := by
  rw [Character.totalUnits, List.sum, List.foldr_map]
  rfl

/-- Code units add up where texts meet between characters. -/
theorem units_append {left right : Text} (meets : Meets left right) :
    (left ++ right).units = left.units + right.units := by
  rw [units_eq, meets, Character.totalUnits_append, ← units_eq, ← units_eq]

/-- A character has no more code units than bytes. -/
theorem Leads.units_le {first : Character} {rest : Text} (leads : Leads first rest) :
    first.units ≤ first.bytes.length := by
  -- Only a single byte could fall short of two units, and it spells a small scalar value.
  have few : first.units ≤ 2 := by
    unfold Character.units
    split <;> decide
  cases leads with
  | spelled spelled =>
    cases spelled with
    | @one lead ascii =>
      have same := (Spells.one ascii).toNat_ofNat
      have single : (⟨Char.ofNat lead.toNat, [lead]⟩ : Character).units = 1 := by
        rw [Character.units, if_pos]
        change (Char.ofNat lead.toNat).toNat < 0x10000
        omega
      rw [single]
      exact Nat.le_refl 1
    | two | three | four =>
      simp only [List.length_cons, List.length_nil]
      omega
  | stray => exact Nat.le_refl 1

/-- A text has no more code units than bytes. -/
theorem units_le_length (text : Text) : text.units ≤ text.length := by
  induction text using induction_on_characters with
  | nil => exact Nat.le_refl 0
  | cons first rest leads ih =>
    have own := leads.units_le
    rw [units_eq] at ih ⊢
    rw [leads.characters, List.length_append, Character.totalUnits, List.map_cons, List.sum_cons]
    exact Nat.add_le_add own ih

/-- A text has no more newlines than bytes. -/
theorem newlines_le_length (text : Text) : text.newlines ≤ text.length :=
  List.count_le_length

/-! ## Boundaries and places -/

/-- An offset falls on a boundary when it is the number of bytes of the first characters. -/
def IsBoundary (text : Text) (offset : Nat) : Prop :=
  ∃ before after, text.characters = before ++ after ∧ (ofCharacters before).length = offset

/-- The number of first characters tells the boundaries. -/
instance (text : Text) (offset : Nat) : Decidable (text.IsBoundary offset) :=
  decidable_of_iff
    (∃ count < text.characters.length + 1,
      (ofCharacters (text.characters.take count)).length = offset) <| by
    constructor
    · rintro ⟨count, _, sized⟩
      exact ⟨_, _, (List.take_append_drop count _).symm, sized⟩
    · rintro ⟨before, after, whole, sized⟩
      refine ⟨before.length, ?_, ?_⟩
      · rw [whole, List.length_append]
        omega
      · rw [whole, List.take_left, sized]

/-- A place between two characters of a text, or at one of its ends. -/
structure Place (text : Text) where
  /-- The characters of the lines above. -/
  above : List Character
  /-- The characters of the line before the place. -/
  line : List Character
  /-- The characters after the place. -/
  after : List Character
  /-- Together they are the characters of the text. -/
  whole : text.characters = above ++ (line ++ after)
  /-- What stands above ends a line. -/
  ended : ∀ last ∈ above.getLast?, last.scalar = '\n'
  /-- The line has not ended before the place. -/
  single : ∀ character ∈ line, character.scalar ≠ '\n'

/-- Cutting the characters of a text in two cuts its bytes in two. -/
theorem eq_append_of_characters {text : Text} {front after : List Character}
    (whole : text.characters = front ++ after) :
    text = ofCharacters front ++ ofCharacters after := by
  rw [← ofCharacters_append, ← whole, ofCharacters_characters]

/-- The bytes of the first characters are the first bytes. -/
theorem take_of_characters {text : Text} {front after : List Character}
    (whole : text.characters = front ++ after) :
    text.take (ofCharacters front).length = ofCharacters front :=
  (congrArg (List.take _) (eq_append_of_characters whole)).trans List.take_left

/-- What follows the bytes of the first characters is spelled by the others. -/
theorem drop_of_characters {text : Text} {front after : List Character}
    (whole : text.characters = front ++ after) :
    text.drop (ofCharacters front).length = ofCharacters after :=
  (congrArg (List.drop _) (eq_append_of_characters whole)).trans List.drop_left

/-- An ASCII byte among sound characters is one of them. -/
theorem exists_of_getElem?_ofCharacters {characters : List Character}
    (sound : ∀ character ∈ characters, character.Sound) {offset : Nat} {byte : UInt8}
    (ascii : byte.toNat < 0x80) (found : (ofCharacters characters)[offset]? = some byte) :
    ∃ front back, characters = front ++ Character.ofByte byte :: back ∧
      (ofCharacters front).length = offset := by
  induction characters generalizing offset with
  | nil => simp at found
  | cons first others ih =>
    obtain ⟨known, later⟩ := List.forall_mem_cons.mp sound
    rw [ofCharacters_cons, List.getElem?_append] at found
    split at found
    · have valued := (known.ascii_mem_iff ascii).mp (List.mem_of_getElem? found)
      obtain rfl := known.eq_ofByte ascii valued
      have inside : offset < 1 := ‹_›
      exact ⟨[], others, rfl, by rw [ofCharacters_nil, List.length_nil]; omega⟩
    · obtain ⟨front, back, rfl, sized⟩ := ih later found
      refine ⟨first :: front, back, rfl, ?_⟩
      rw [ofCharacters_cons, List.length_append]
      omega

/-- An ASCII byte of a text is one of its characters. -/
theorem exists_of_getElem? {text : Text} {offset : Nat} {byte : UInt8}
    (ascii : byte.toNat < 0x80) (found : text[offset]? = some byte) :
    ∃ front back, text.characters = front ++ Character.ofByte byte :: back ∧
      (ofCharacters front).length = offset ∧ text.drop (offset + 1) = ofCharacters back := by
  rw [← text.ofCharacters_characters] at found
  obtain ⟨front, back, whole, sized⟩ :=
    exists_of_getElem?_ofCharacters text.sound_of_mem_characters ascii found
  have dropped := drop_of_characters (whole.trans (List.append_cons front _ back))
  rw [ofCharacters_append, List.length_append, sized] at dropped
  exact ⟨front, back, whole, sized, dropped⟩

/-- A newline byte among characters belongs to a newline. -/
theorem newline_mem_ofCharacters {characters : List Character}
    (sound : ∀ character ∈ characters, character.Sound)
    (member : newline ∈ ofCharacters characters) :
    ∃ character ∈ characters, character.scalar = '\n' := by
  obtain ⟨character, listed, spelled⟩ := List.mem_flatMap.mp member
  exact ⟨character, listed, (sound character listed).newline_mem_iff.mp spelled⟩

namespace Place

variable {text : Text} (place : text.Place)

/-- The bytes before a place. -/
def before : Text :=
  ofCharacters place.above ++ ofCharacters place.line

/-- The number of bytes before a place. -/
def offset : Nat :=
  place.before.length

/-- The number of lines above a place: the newlines among the bytes before it. -/
def row : Nat :=
  newlines (text.take place.offset)

/-- The number of code units before a place on its line. -/
def units : Nat :=
  Character.totalUnits place.line

/-- The bytes before a place are the first ones of the text. -/
theorem take_offset : text.take place.offset = place.before := by
  have whole : text.characters = (place.above ++ place.line) ++ place.after := by
    rw [place.whole, List.append_assoc]
  have first := take_of_characters whole
  rwa [ofCharacters_append] at first

/-- The characters of the line of a place are read as such. -/
theorem characters_line : (ofCharacters place.line).characters = place.line :=
  characters_ofCharacters place.whole

/-- What stands before a place on its line has no newline. -/
theorem newlines_line : (ofCharacters place.line).newlines = 0 := by
  refine List.count_eq_zero.mpr fun member => ?_
  have sound : ∀ character ∈ place.line, character.Sound := by
    have known := (ofCharacters place.line).sound_of_mem_characters
    rwa [place.characters_line] at known
  obtain ⟨character, listed, ends⟩ := newline_mem_ofCharacters sound member
  exact place.single character listed ends

/-- What stands above a place is empty or ends with a newline. -/
theorem getLast?_above : ∀ byte ∈ (ofCharacters place.above).getLast?, byte = newline := by
  rcases List.eq_nil_or_concat place.above with empty | ⟨front, last, split⟩
  · rw [empty]
    simp
  · have ends : last.scalar = '\n' := place.ended last (by rw [split]; simp)
    have known : last.Sound :=
      text.sound_of_mem_characters last (by rw [place.whole, split]; simp)
    have spelled : last.bytes = [newline] := by
      rw [known.ascii (by rw [ends]; decide), ends]
      rfl
    rw [split, List.concat_eq_append, ofCharacters_append, ofCharacters_cons, ofCharacters_nil,
      spelled, List.append_nil, List.getLast?_concat]
    rintro byte ⟨⟩
    rfl

/-- The last line of the bytes before a place is what stands before it on its line. -/
theorem lastLine_before : place.before.lastLine = ofCharacters place.line := by
  have nothing : (ofCharacters place.above).lastLine = [] := by
    have ends := place.getLast?_above
    rw [← List.head?_reverse] at ends
    rw [lastLine, List.reverse_eq_nil_iff]
    cases reversed : (ofCharacters place.above).reverse with
    | nil => rfl
    | cons byte rest =>
      rw [reversed] at ends
      have same : byte = newline := ends byte rfl
      rw [same]
      rfl
  rw [before, lastLine_append place.newlines_line, nothing, List.nil_append]

/-- The lines above a place are the newlines of what stands above. -/
theorem row_eq : place.row = (ofCharacters place.above).newlines := by
  rw [row, take_offset, before, newlines_append, newlines_line, Nat.add_zero]

/-- A position that has read the bytes before a place counts its lines, its characters and its
bytes. -/
theorem start_advance : Position.start.advance place.before =
    ⟨1 + place.row, 1 + place.line.length, place.offset⟩ := by
  have counted : place.before.newlines = place.row := by rw [row, take_offset]
  have wide : place.before.lastLine.width = place.line.length := by
    rw [lastLine_before, width, characters_line]
  simp only [Position.advance, Position.start, counted, wide, Position.mk.injEq, true_and,
    offset, Int.zero_add, and_true]
  split
  · -- On the first line the bytes before the place are its line.
    rename_i first
    have alone : place.before.lastLine = place.before := by
      have absent : newline ∉ place.before := List.count_eq_zero.mp (counted.trans first)
      rw [lastLine, List.takeWhile_eq_self_iff.mpr, List.reverse_reverse]
      intro byte member
      simpa using fun same : byte = newline => absent (same ▸ List.mem_reverse.mp member)
    rw [← wide, alone]
  · rfl

end Place

/-- Characters in front of a text end at a place. -/
theorem exists_place {text : Text} {before after : List Character}
    (whole : text.characters = before ++ after) :
    ∃ place : text.Place, place.above ++ place.line = before ∧ place.after = after := by
  let stays : Character → Bool := fun character => decide (character.scalar ≠ '\n')
  have split : before.rdropWhile stays ++ before.rtakeWhile stays = before :=
    List.rdropWhile_append_rtakeWhile
  refine ⟨⟨before.rdropWhile stays, before.rtakeWhile stays, after, ?_, ?_, ?_⟩, split, rfl⟩
  · rw [whole, ← List.append_assoc, split]
  · intro last ends
    obtain ⟨present, same⟩ := List.mem_getLast?_eq_getLast ends
    have stopped := List.rdropWhile_last_not stays before present
    rw [← same] at stopped
    simpa [stays] using stopped
  · intro character member
    simpa [stays] using List.mem_rtakeWhile_imp member

/-- The boundaries of a text are the offsets of its places. -/
theorem isBoundary_iff {text : Text} {offset : Nat} :
    text.IsBoundary offset ↔ ∃ place : text.Place, place.offset = offset := by
  constructor
  · rintro ⟨before, after, whole, rfl⟩
    obtain ⟨place, split, _⟩ := exists_place whole
    refine ⟨place, ?_⟩
    rw [Place.offset, Place.before, ← ofCharacters_append, split]
  · rintro ⟨place, rfl⟩
    refine ⟨place.above ++ place.line, place.after, ?_, ?_⟩
    · rw [place.whole, List.append_assoc]
    · rw [ofCharacters_append, Place.offset, Place.before]

end Text

end Aml
