import Mathlib
import Aml.Editor.Position
import Aml.Proofs.Text.Place

/-!
# Editor positions of places

An editor names a place of a text by the lines above it and the code units before it on its line.
`EditorPosition.ofOffset` finds this name by counting in the bytes before the place, and
`EditorPosition.indexIn` finds the place by walking over lines and then over characters. Texts
shorter than 2^32 bytes have no more lines and code units than the numbers of a position can hold,
so on them the name of a place is exact (`toNat_ofOffset_place`), and walking from it leads back to
the place (`indexIn_ofOffset`).
-/
namespace Aml.EditorPosition

open Text

variable {text : Text}

/-! ## From places to positions -/

/-- The editor position of an offset counts the newlines and the code units of the last line of
the bytes before it. -/
theorem toNat_ofOffset (short : text.length < 2 ^ 32) (offset : Nat) :
    (ofOffset text offset).line.toNat = newlines (text.take offset) ∧
      (ofOffset text offset).character.toNat = (lastLine (text.take offset)).units := by
  have inside : (text.take offset).length ≤ text.length := List.length_take_le' _ _
  have rows : newlines (text.take offset) ≤ (text.take offset).length := newlines_le_length _
  have columns : (lastLine (text.take offset)).units ≤ (text.take offset).length := by
    obtain ⟨front, split, _⟩ := Text.exists_append_lastLine (text.take offset)
    have sized := congrArg List.length split
    rw [List.length_append] at sized
    have measured := units_le_length (lastLine (text.take offset))
    omega
  constructor
  · apply UInt32.toNat_ofNat_of_lt'
    change _ < 2 ^ 32
    omega
  · apply UInt32.toNat_ofNat_of_lt'
    change _ < 2 ^ 32
    omega

/-- The editor position of a place counts the lines above and the code units before it. -/
theorem toNat_ofOffset_place (place : text.Place) (short : text.length < 2 ^ 32) :
    (ofOffset text place.offset).line.toNat = place.row ∧
      (ofOffset text place.offset).character.toNat = place.units := by
  have measured : (lastLine place.before).units = place.units := by
    rw [place.lastLine_before, units_eq, place.characters_line, Place.units]
  obtain ⟨rows, columns⟩ := toNat_ofOffset short place.offset
  refine ⟨rows, columns.trans ?_⟩
  rw [place.take_offset, measured]

/-! ## From positions to places -/

/-- Walking over as many lines as a text has leads past it, if it is empty or ends a line. -/
theorem lineStart?_append (left right : Text) (index : Nat)
    (ended : ∀ byte ∈ left.getLast?, byte = newline) :
    lineStart? (left ++ right) (newlines left) index = some (index + left.length, right) := by
  induction left generalizing index with
  | nil => simp [lineStart?]
  | cons byte rest ih =>
    have later : ∀ last ∈ rest.getLast?, last = newline := by
      intro last ends
      refine ended last ?_
      rw [List.getLast?_cons, Option.mem_def.mp ends]
      rfl
    have sized : index + (byte :: rest).length = (index + 1) + rest.length := by
      rw [List.length_cons]
      omega
    rw [sized, ← ih (index + 1) later]
    by_cases ends : byte = newline
    · have counted : newlines (byte :: rest) = newlines rest + 1 := by
        rw [ends]
        exact List.count_cons_self
      rw [counted, List.cons_append, lineStart?, if_pos ends]
    · -- The line that the byte stands on ends further on, so a line is left to walk over.
      have counted : newlines (byte :: rest) = newlines rest := List.count_cons_of_ne ends
      have several : newlines rest ≠ 0 := by
        intro none
        have absent : newline ∉ rest := List.count_eq_zero.mp none
        have last := List.getLast?_eq_some_getLast (List.cons_ne_nil byte rest)
        have same := ended _ last
        obtain first | inner := List.mem_cons.mp (same ▸ List.mem_of_getLast? last)
        · exact ends first.symm
        · exact absent inner
      obtain ⟨line, positive⟩ := Nat.exists_eq_succ_of_ne_zero several
      rw [counted, positive, List.cons_append, lineStart?, if_neg ends]

/-- Walking over the code units of a character that ends no line leads past it. -/
theorem unitIndex_cons {character : Character} (goesOn : character.scalar ≠ '\n')
    (rest : List Character) (units index : Nat) :
    unitIndex (character :: rest) (character.units + units) index =
      unitIndex rest units (index + character.bytes.length) := by
  by_cases wide : character.units = 2
  · rw [wide, Nat.add_comm 2]
    simp only [unitIndex, if_neg goesOn, if_pos wide]
  · have narrow : character.units = 1 := by
      unfold Character.units at wide ⊢
      split at wide
      · exact if_pos ‹_›
      · contradiction
    rw [narrow, Nat.add_comm 1, unitIndex.eq_def]
    simp only [if_neg goesOn, if_neg wide]

/-- Walking over the code units of characters that end no line leads past them. -/
theorem unitIndex_append (line after : List Character) (index : Nat)
    (single : ∀ character ∈ line, character.scalar ≠ '\n') :
    unitIndex (line ++ after) (Character.totalUnits line) index =
      index + (ofCharacters line).length := by
  induction line generalizing index with
  | nil => cases after <;> simp [unitIndex, Character.totalUnits]
  | cons character rest ih =>
    obtain ⟨first, later⟩ := List.forall_mem_cons.mp single
    have total : Character.totalUnits (character :: rest) =
        character.units + Character.totalUnits rest := by
      simp [Character.totalUnits]
    rw [total, List.cons_append, unitIndex_cons first, ih _ later, ofCharacters_cons,
      List.length_append, Nat.add_assoc]

/-- Walking from the editor position of a place leads to the place. -/
theorem indexIn_ofOffset (place : text.Place) (short : text.length < 2 ^ 32) :
    (ofOffset text place.offset).indexIn text = place.offset := by
  obtain ⟨rows, columns⟩ := toNat_ofOffset_place place short
  have walked : lineStart? text place.row 0 =
      some ((ofCharacters place.above).length, ofCharacters (place.line ++ place.after)) := by
    have split := eq_append_of_characters place.whole
    have start := lineStart?_append (ofCharacters place.above)
      (ofCharacters (place.line ++ place.after)) 0 place.getLast?_above
    rwa [← split, ← place.row_eq, Nat.zero_add] at start
  have read : (ofCharacters (place.line ++ place.after)).characters =
      place.line ++ place.after :=
    characters_ofCharacters_right place.whole
  rw [indexIn, rows, columns, walked]
  simp only [read]
  rw [Place.units, unitIndex_append place.line place.after _ place.single, Place.offset,
    Place.before, List.length_append]

end Aml.EditorPosition
