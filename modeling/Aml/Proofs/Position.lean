import Mathlib
import Aml.Position
import Aml.Proofs.Text.Decoding

/-!
# Laws of positions

Reading two texts one after the other moves a position as reading them in one go does, provided
that they meet between characters (`Position.advance_append_of_meets`), as they do when no character
can reach across the seam between them (`Position.advance_append`). Only the column needs the
proviso, because it counts characters.
-/
namespace Aml

namespace Text

/-- Widths add up where texts meet between characters. -/
theorem width_append {left right : Text} (meets : Meets left right) :
    (left ++ right).width = left.width + right.width := by
  rw [width, meets, List.length_append]
  rfl

/-- The last line goes on through a text without newlines. -/
theorem lastLine_append {left right : Text} (single : right.newlines = 0) :
    (left ++ right).lastLine = left.lastLine ++ right := by
  have absent : newline ∉ right := List.count_eq_zero.mp single
  rw [lastLine, List.reverse_append, List.takeWhile_append_of_pos, List.reverse_append,
    List.reverse_reverse, lastLine]
  intro byte member
  simpa using fun same : byte = newline => absent (same ▸ List.mem_reverse.mp member)

/-- A newline starts the last line anew. -/
theorem lastLine_append_of_newline {left right : Text} (several : right.newlines ≠ 0) :
    (left ++ right).lastLine = right.lastLine := by
  have present : newline ∈ right := by
    by_contra absent
    exact several (List.count_eq_zero.mpr absent)
  rw [lastLine, lastLine, List.reverse_append, List.takeWhile_append]
  rw [if_neg]
  intro whole
  have all := List.takeWhile_eq_self_iff.mp
    ((List.takeWhile_prefix _).eq_of_length whole) newline (List.mem_reverse.mpr present)
  simp at all

/-- A text is its last line after a part that is empty or ends a line. -/
theorem exists_append_lastLine (text : Text) :
    ∃ front, text = front ++ text.lastLine ∧ ∀ byte ∈ front.getLast?, byte = newline := by
  refine ⟨(text.reverse.dropWhile (· ≠ newline)).reverse, ?_, fun byte last => ?_⟩
  · rw [lastLine, ← List.reverse_append, List.takeWhile_append_dropWhile, List.reverse_reverse]
  · rw [List.getLast?_reverse] at last
    have stops := List.head?_dropWhile_not (fun byte : UInt8 => decide (byte ≠ newline))
      text.reverse
    rw [last] at stops
    simpa using stops

/-- The last line of a text meets what the text meets. -/
theorem Meets.lastLine {left right : Text} (meets : Meets left right) :
    Meets left.lastLine right := by
  obtain ⟨front, split, ends⟩ := left.exists_append_lastLine
  rw [split] at meets
  refine meets.of_append fun text => .inl fun byte last => ?_
  rw [ends byte last]
  decide

end Text

namespace Position

/-- Reading two texts that meet between characters one after the other is reading them in one
go. -/
theorem advance_append_of_meets (position : Position) {left right : Text}
    (meets : Text.Meets left right) :
    (position.advance left).advance right = position.advance (left ++ right) := by
  simp only [advance, Text.newlines_append, List.length_append, Position.mk.injEq]
  refine ⟨by push_cast; ring, ?_, by push_cast; ring⟩
  by_cases single : right.newlines = 0
  · by_cases first : left.newlines = 0
    · simp only [single, first, if_true, Nat.add_zero, Text.width_append meets]
      push_cast
      ring
    · simp only [single, first, if_true, if_false, Nat.add_zero, Text.lastLine_append single,
        Text.width_append meets.lastLine]
      push_cast
      ring
  · rw [if_neg single, if_neg (by omega), Text.lastLine_append_of_newline single]

/-- Reading two texts with a seam between them one after the other is reading them in one go. -/
theorem advance_append (position : Position) {left right : Text}
    (separate : Text.Separate left right) :
    (position.advance left).advance right = position.advance (left ++ right) :=
  position.advance_append_of_meets separate.meets

/-- Reading nothing moves no position. -/
@[simp]
theorem advance_nil (position : Position) : position.advance [] = position := by
  simp [advance, Text.newlines, Text.width]

/-- A byte offset moves by the length of the text read. -/
@[simp]
theorem advance_offset (position : Position) (text : Text) :
    (position.advance text).offset = position.offset + text.length := rfl

/-- A line moves by the newlines of the text read. -/
@[simp]
theorem advance_line (position : Position) (text : Text) :
    (position.advance text).line = position.line + text.newlines := rfl

end Position

end Aml
