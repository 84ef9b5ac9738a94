import Mathlib
import Aml.Proofs.Position

/-!
# Lines of texts

A text is a line without a newline, or such a line with its newline and a text after it
(`Text.induction_on_lines`). The laws here say what the functions on lines do with either.
-/
namespace Aml.Text

/-- The number of lines; what stands after the last newline is one when it is not empty. -/
def lineCount (text : Text) : Nat :=
  text.newlines + if text.lastLine = [] then 0 else 1

/-- A text is taken apart line by line. -/
@[elab_as_elim]
theorem induction_on_lines {motive : Text → Prop}
    (last : ∀ line, newline ∉ line → motive line)
    (cons : ∀ line rest, newline ∉ line → motive rest → motive (line ++ newline :: rest))
    (text : Text) : motive text := by
  by_cases present : newline ∈ text
  · obtain ⟨line, rest, rfl, inline⟩ := List.eq_append_cons_of_mem present
    exact cons line rest inline (induction_on_lines last cons rest)
  · exact last text present
termination_by text.length

variable {line : Text}

/-- The lines found before come first. -/
theorem linesLoop_done (text current : Text) (done : List Text) :
    linesLoop text current done = done.reverse ++ linesLoop text current [] := by
  induction text generalizing current done with
  | nil => simp [linesLoop]
  | cons byte rest ih =>
    rw [linesLoop, linesLoop]
    split
    · rw [ih [] (current.reverse :: done), ih [] [current.reverse]]
      simp
    · exact ih _ _

/-- Bytes that end no line are added to the current one. -/
theorem linesLoop_inline (inline : newline ∉ line) (rest current : Text) (done : List Text) :
    linesLoop (line ++ rest) current done = linesLoop rest (line.reverse ++ current) done := by
  induction line generalizing current with
  | nil => rfl
  | cons byte line ih =>
    obtain ⟨first, later⟩ := List.ne_and_not_mem_of_not_mem_cons inline
    rw [List.cons_append, linesLoop, if_neg first.symm, ih later, List.reverse_cons,
      List.append_assoc, List.singleton_append]

/-- A text without a newline is one line. -/
theorem lines_of_inline (inline : newline ∉ line) : line.lines = [line] := by
  have looped := linesLoop_inline inline [] [] []
  rw [List.append_nil, List.append_nil] at looped
  rw [lines, looped, linesLoop, List.reverse_reverse]
  rfl

/-- A line in front is the first one. -/
theorem lines_cons (inline : newline ∉ line) (rest : Text) :
    (line ++ newline :: rest).lines = line :: rest.lines := by
  rw [lines, linesLoop_inline inline, linesLoop, if_pos rfl, linesLoop_done, List.append_nil,
    List.reverse_reverse]
  rfl

/-- Every text has a line. -/
theorem lines_ne_nil (text : Text) : text.lines ≠ [] := by
  induction text using induction_on_lines with
  | last line inline => simp [lines_of_inline inline]
  | cons line rest inline => simp [lines_cons inline]

/-- The lines of a text are parts of it. -/
theorem subset_of_mem_lines {text : Text} (listed : line ∈ text.lines) : line ⊆ text := by
  induction text using induction_on_lines with
  | last text inline =>
    rw [lines_of_inline inline, List.mem_singleton] at listed
    rw [listed]
    exact List.Subset.refl _
  | cons first rest inline ih =>
    rw [lines_cons inline] at listed
    obtain rfl | later := List.mem_cons.mp listed
    · exact List.subset_append_left _ _
    · exact List.subset_append_of_subset_right _ (List.subset_cons_of_subset _ (ih later))

/-- A text without a newline is its last line. -/
theorem lastLine_of_inline (inline : newline ∉ line) : line.lastLine = line := by
  have whole := @lastLine_append [] line (List.count_eq_zero.mpr inline)
  rwa [List.nil_append] at whole

/-- The last line stands after every newline. -/
theorem lastLine_cons (front rest : Text) :
    (front ++ newline :: rest).lastLine = rest.lastLine := by
  by_cases single : rest.newlines = 0
  · have ended : newlines [newline] ≠ 0 := by decide
    rw [List.append_cons, lastLine_append single, lastLine_append_of_newline ended,
      lastLine_of_inline (List.count_eq_zero.mp single)]
    rfl
  · rw [List.append_cons, lastLine_append_of_newline single]

/-- A line in front is counted. -/
theorem lineCount_cons (inline : newline ∉ line) (rest : Text) :
    (line ++ newline :: rest).lineCount = rest.lineCount + 1 := by
  have counted : (line ++ newline :: rest).newlines = rest.newlines + 1 := by
    rw [newlines, List.count_append, List.count_eq_zero.mpr inline, List.count_cons_self,
      Nat.zero_add]
    rfl
  rw [lineCount, lineCount, counted, lastLine_cons]
  omega

/-- A text without a newline counts when it is not empty. -/
theorem lineCount_of_inline (inline : newline ∉ line) :
    line.lineCount = if line = [] then 0 else 1 := by
  rw [lineCount, lastLine_of_inline inline, newlines, List.count_eq_zero.mpr inline, Nat.zero_add]

end Aml.Text
