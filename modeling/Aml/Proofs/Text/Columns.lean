import Mathlib
import Aml.Proofs.Text.Decoding
import Aml.Text.Columns

/-!
# What aligning columns does to a text

The layout prints the cells of a line in order and puts spaces after each but the last; it neither
joins nor breaks lines (`padded_layout`). So the lines that come out are the lines that the splitter
finds. A run of the splitter from the start of a line finds the same lines whatever was read before
(`Splitter.Continues.read`), opens the first of them with its first cell (`Splitter.Opens.read`),
and meets as many line ends as `lineEnds` counts (`Splitter.met_read`). Hence rows that each start
with a plain cell and keep no escape open are printed as one block each, in order; the block starts
with this cell and two spaces, and has one line more than line ends among the other cells
(`exists_align_rows`).
-/
namespace Aml.Columns

open Text (newline)

/-! ## Padding -/

/-- A line as it is printed: its cells in order, with spaces after each but the last. -/
inductive Padded : List Cell → Text → Prop where
  | nil : Padded [] []
  | last (cell : Cell) : Padded [cell] cell.text
  | cons {cell next : Cell} {rest : List Cell} {printed : Text} {gap : Nat} (wide : padding ≤ gap)
      (padded : Padded (next :: rest) printed) :
      Padded (cell :: next :: rest) (cell.text ++ Text.spaces gap ++ printed)

/-- The newlines in the cells of a line. -/
def lineNewlines (line : List Cell) : Nat :=
  (line.map fun cell => cell.text.newlines).sum

/-- Spaces have no newline. -/
theorem newlines_spaces (count : Nat) : (Text.spaces count).newlines = 0 :=
  List.count_eq_zero.mpr fun member => by cases List.eq_of_mem_replicate member

/-- A printed line has the newlines of its cells. -/
theorem Padded.newlines {line : List Cell} {printed : Text} (padded : Padded line printed) :
    printed.newlines = lineNewlines line := by
  induction padded with
  | nil => rfl
  | last cell => simp [lineNewlines]
  | cons wide padded ih =>
    rw [Text.newlines_append, Text.newlines_append, newlines_spaces, ih]
    simp [lineNewlines]

/-- The greatest measure, as a fold finds it, is at least its start and every measure. -/
theorem le_foldl_max {α : Type} (measure : α → Nat) (items : List α) (least : Nat) :
    least ≤ items.foldl (fun most item => max most (measure item)) least ∧
      ∀ item ∈ items, measure item ≤
        items.foldl (fun most item => max most (measure item)) least := by
  induction items generalizing least with
  | nil => simp
  | cons first rest ih =>
    obtain ⟨grows, bounds⟩ := ih (max least (measure first))
    rw [List.foldl_cons]
    exact ⟨by omega, List.forall_mem_cons.mpr ⟨by omega, bounds⟩⟩

/-- The lines of a run agree on whether their first cell is in a column. -/
theorem inColumn_eq_of_mem_run {lines run : List (List Cell)}
    (member : run ∈ lines.splitBy fun left right => inColumn left == inColumn right)
    {one other : List Cell} (first : one ∈ run) (second : other ∈ run) :
    inColumn one = inColumn other := by
  have chain : run.IsChain fun left right => inColumn left = inColumn right :=
    (List.isChain_of_mem_splitBy member).imp fun _ _ same => eq_of_beq same
  have symmetric : Std.Symm fun left right : List Cell => inColumn left = inColumn right :=
    ⟨fun _ _ => Eq.symm⟩
  have pairwise : run.Pairwise fun left right => inColumn left = inColumn right :=
    List.isChain_iff_pairwise.mp chain
  exact List.Pairwise.forall_of_forall (R := fun left right => inColumn left = inColumn right)
    (fun _ _ => rfl) pairwise first second

/-- Lines that all have a first cell in a column are printed with this cell padded to a width that
leaves room after it. -/
theorem padded_zipWith {width : Nat} {run : List (List Cell)} {rests : List Text}
    (columned : ∀ line ∈ run, inColumn line = true)
    (fits : ∀ line ∈ run, firstWidth line + padding ≤ width)
    (padded : List.Forall₂ Padded (run.map withoutFirst) rests) :
    List.Forall₂ Padded run
      (List.zipWith (fun line rest => paddedFirst width line ++ rest) run rests) := by
  induction run generalizing rests with
  | nil => exact .nil
  | cons line run ih =>
    rw [List.map_cons] at padded
    cases padded with
    | @cons _ rest _ rests first others =>
      obtain ⟨several, later⟩ := List.forall_mem_cons.mp columned
      obtain ⟨room, bounds⟩ := List.forall_mem_cons.mp fits
      refine .cons ?_ (ih later bounds others)
      match line, several with
      | cell :: next :: cells, _ =>
        have wide : padding ≤ width - cell.width := by
          rw [firstWidth] at room
          omega
        exact .cons wide first

/-- Every line is printed by itself, as long as the fuel counts its cells. -/
theorem padded_layout {fuel : Nat} {lines : List (List Cell)}
    (enough : ∀ line ∈ lines, line.length ≤ fuel) :
    List.Forall₂ Padded lines (layout fuel lines) := by
  have alone {line : List Cell} (short : line.length ≤ 1) : Padded line (plainLine line) := by
    match line, short with
    | [], _ => exact .nil
    | [cell], _ =>
      rw [plainLine, List.flatMap_singleton]
      exact .last cell
  induction fuel generalizing lines with
  | zero =>
    refine List.forall₂_map_right_iff.mpr (List.forall₂_same.mpr fun line member => alone ?_)
    have none := enough line member
    omega
  | succ fuel ih =>
    generalize split : (lines.splitBy fun left right => inColumn left == inColumn right) = runs
    have whole : runs.flatten = lines := split ▸ List.flatten_splitBy _ _
    rw [layout, split, ← whole, List.flatMap]
    refine List.rel_flatten (List.forall₂_map_right_iff.mpr (List.forall₂_same.mpr ?_))
    intro run listed
    have within : ∀ line ∈ run, line ∈ lines := fun line member =>
      whole ▸ List.mem_flatten_of_mem listed member
    have agree {one other : List Cell} (first : one ∈ run) (second : other ∈ run) :
        inColumn one = inColumn other :=
      inColumn_eq_of_mem_run (split ▸ listed) first second
    by_cases columned : run.any inColumn = true
    · obtain ⟨one, first, several⟩ := List.any_eq_true.mp columned
      have all : ∀ line ∈ run, inColumn line = true := fun line member =>
        (agree member first).trans several
      have short : ∀ rest ∈ run.map withoutFirst, rest.length ≤ fuel := by
        refine List.forall_mem_map.mpr fun line member => ?_
        have bound := enough line (within line member)
        rw [withoutFirst, List.length_drop]
        omega
      have widest := (le_foldl_max firstWidth run 0).2
      rw [if_pos columned]
      refine padded_zipWith all (fun line member => ?_) (ih short)
      have least := widest line member
      omega
    · rw [if_neg columned]
      refine List.forall₂_map_right_iff.mpr (List.forall₂_same.mpr fun line member => alone ?_)
      by_contra long
      refine columned (List.any_eq_true.mpr ⟨line, member, ?_⟩)
      rw [inColumn, decide_eq_true_eq]
      omega

namespace Splitter

/-! ## Lines -/

/-- The finished lines of all blocks. -/
def allLines (splitter : Splitter) : List (List Cell) :=
  splitter.blocks.reverse.flatten ++ splitter.lines.reverse

/-- Reads bytes one by one. -/
def read (splitter : Splitter) (text : Text) : Splitter :=
  text.foldl step splitter

/-- Two texts in a row are read one after the other. -/
theorem read_append (splitter : Splitter) (left right : Text) :
    splitter.read (left ++ right) = (splitter.read left).read right :=
  List.foldl_append

/-- Keeping a byte finishes no line. -/
@[simp]
theorem allLines_keep (splitter : Splitter) (byte : UInt8) :
    (splitter.keep byte).allLines = splitter.allLines := rfl

/-- Ending a cell finishes no line. -/
@[simp]
theorem allLines_endCell (splitter : Splitter) :
    splitter.endCell.allLines = splitter.allLines := rfl

/-- Ending a line finishes the line of the open cells. -/
@[simp]
theorem allLines_endLine (splitter : Splitter) :
    splitter.endLine.allLines =
      splitter.allLines ++ [(splitter.cell :: splitter.cells).reverse] := by
  simp [allLines, endLine, endCell]

/-- Ending a block only moves the lines that are finished. -/
@[simp]
theorem allLines_endBlock (splitter : Splitter) :
    splitter.endBlock.allLines = splitter.allLines := by
  simp [allLines, endBlock]

/-- One byte is kept, or ends a cell, a line or a block; only a byte that is kept can change
whether the text is inside escape bytes. -/
theorem step_cases (splitter : Splitter) (byte : UInt8) :
    (byte = escapeByte ∧ splitter.step byte =
      { splitter.keep byte with escaped := !splitter.escaped }) ∨
    (byte ≠ escapeByte ∧
      (splitter.escaped = true ∨ byte ≠ 9 ∧ byte ≠ 10 ∧ byte ≠ 11 ∧ byte ≠ 12) ∧
      splitter.step byte = splitter.keep byte) ∨
    (splitter.escaped = false ∧ (byte = 9 ∨ byte = 11) ∧
      splitter.step byte = splitter.endCell) ∨
    (splitter.escaped = false ∧ byte = 10 ∧ splitter.step byte = splitter.endLine) ∨
    (splitter.escaped = false ∧ byte = 12 ∧ splitter.step byte = splitter.endLine.endBlock) := by
  unfold step
  split_ifs with escape escaped tab ends breaks
  · exact .inl ⟨escape, rfl⟩
  · exact .inr (.inl ⟨escape, .inl escaped, rfl⟩)
  · exact .inr (.inr (.inl ⟨eq_false_of_ne_true escaped, tab, rfl⟩))
  · exact .inr (.inr (.inr (.inl ⟨eq_false_of_ne_true escaped, ends, rfl⟩)))
  · exact .inr (.inr (.inr (.inr ⟨eq_false_of_ne_true escaped, breaks, rfl⟩)))
  · obtain ⟨notTab, notBreak⟩ := not_or.mp tab
    exact .inr (.inl ⟨escape, .inr ⟨notTab, ends, notBreak, breaks⟩, rfl⟩)

/-- A splitter that has got further than another one by some lines in front. -/
structure Continues (front : List (List Cell)) (alone splitter : Splitter) : Prop where
  current : splitter.current = alone.current
  escaped : splitter.escaped = alone.escaped
  cells : splitter.cells = alone.cells
  lines : splitter.allLines = front ++ alone.allLines

/-- Reading one byte keeps the lines in front. -/
theorem Continues.step {front : List (List Cell)} {alone splitter : Splitter}
    (continues : Continues front alone splitter) (byte : UInt8) :
    Continues front (alone.step byte) (splitter.step byte) := by
  obtain ⟨current, escaped, cells, lines⟩ := continues
  have cell : splitter.cell = alone.cell := by rw [Splitter.cell, Splitter.cell, current]
  unfold Splitter.step
  rw [escaped]
  split_ifs
  · exact ⟨by rw [keep, keep, current], rfl, cells, lines⟩
  · exact ⟨by rw [keep, keep, current], escaped, cells, lines⟩
  · exact ⟨rfl, escaped, by rw [endCell, endCell, cell, cells], lines⟩
  · exact ⟨rfl, escaped, rfl, by simp [cell, cells, lines]⟩
  · exact ⟨rfl, escaped, rfl, by simp [cell, cells, lines]⟩
  · exact ⟨by rw [keep, keep, current], escaped, cells, lines⟩

/-- What a text adds does not depend on the lines in front. -/
theorem Continues.read {front : List (List Cell)} {alone splitter : Splitter}
    (continues : Continues front alone splitter) (text : Text) :
    Continues front (alone.read text) (splitter.read text) := by
  induction text generalizing alone splitter with
  | nil => exact continues
  | cons byte rest ih => exact ih (continues.step byte)

/-- A splitter at the start of a line, outside escape bytes. -/
structure AtLineStart (splitter : Splitter) : Prop where
  current : splitter.current = []
  escaped : splitter.escaped = false
  cells : splitter.cells = []

/-- From the start of a line on, a splitter goes on like a new one. -/
theorem AtLineStart.continues {splitter : Splitter} (starts : splitter.AtLineStart) :
    Continues splitter.allLines {} splitter :=
  ⟨starts.current, starts.escaped, starts.cells, (List.append_nil _).symm⟩

/-! ## First cells -/

/-- A splitter on its first line after a first cell, or past a line that this cell opens. -/
def Opens (first : Cell) (splitter : Splitter) : Prop :=
  (splitter.allLines = [] ∧ splitter.cells.getLast? = some first) ∨
    ∃ next rest later, splitter.allLines = (first :: next :: rest) :: later

/-- Ending a line leaves the first cell where it is, with another one after it. -/
theorem Opens.endLine {first : Cell} {splitter : Splitter} (opens : splitter.Opens first) :
    splitter.endLine.Opens first := by
  right
  rw [allLines_endLine]
  rcases opens with ⟨fresh, found⟩ | ⟨next, rest, later, found⟩
  · obtain ⟨cells, split⟩ := List.getLast?_eq_some_iff.mp found
    have reversed : (splitter.cell :: splitter.cells).reverse =
        first :: (splitter.cell :: cells).reverse := by
      rw [split, ← List.cons_append, List.reverse_append]
      rfl
    obtain ⟨next, rest, several⟩ :
        ∃ next rest, (splitter.cell :: cells).reverse = next :: rest :=
      List.exists_cons_of_ne_nil (by simp)
    exact ⟨next, rest, [], by rw [fresh, reversed, several, List.nil_append]⟩
  · exact ⟨next, rest, later ++ [(splitter.cell :: splitter.cells).reverse],
      by rw [found, List.cons_append]⟩

/-- Reading one byte leaves the first cell where it is. -/
theorem Opens.step {first : Cell} {splitter : Splitter} (opens : splitter.Opens first)
    (byte : UInt8) : (splitter.step byte).Opens first := by
  rcases splitter.step_cases byte with ⟨_, moved⟩ | ⟨_, _, moved⟩ | ⟨_, _, moved⟩ | ⟨_, _, moved⟩ |
    ⟨_, _, moved⟩
  · rw [moved]
    exact opens
  · rw [moved]
    exact opens
  · rw [moved]
    refine opens.imp (fun ⟨fresh, found⟩ => ⟨fresh, ?_⟩) id
    change (splitter.cell :: splitter.cells).getLast? = some first
    have present : splitter.cells ≠ [] := by
      rintro empty
      rw [empty] at found
      contradiction
    rw [List.getLast?_cons_of_ne_nil present, found]
  · rw [moved]
    exact opens.endLine
  · rw [moved, Opens, allLines_endBlock]
    rcases opens.endLine with ⟨fresh, _⟩ | opened
    · simp at fresh
    · exact .inr opened

/-- Reading a text leaves the first cell where it is. -/
theorem Opens.read {first : Cell} {splitter : Splitter} (opens : splitter.Opens first)
    (text : Text) : (splitter.read text).Opens first := by
  induction text generalizing splitter with
  | nil => exact opens
  | cons byte rest ih => exact ih (opens.step byte)

end Splitter

/-- A byte that neither separates nor escapes. -/
def IsPlain (byte : UInt8) : Prop :=
  byte ≠ 9 ∧ byte ≠ 10 ∧ byte ≠ 11 ∧ byte ≠ 12 ∧ byte ≠ escapeByte

/-- Plain bytes are kept. -/
theorem Splitter.read_plain {splitter : Splitter} (outside : splitter.escaped = false) {text : Text}
    (plain : ∀ byte ∈ text, IsPlain byte) :
    splitter.read text = { splitter with current := text.reverse ++ splitter.current } := by
  induction text generalizing splitter with
  | nil => rfl
  | cons byte rest ih =>
    obtain ⟨⟨tab, ends, upright, breaks, escape⟩, later⟩ := List.forall_mem_cons.mp plain
    have kept : splitter.step byte = splitter.keep byte := by
      simp [step, outside, tab, ends, upright, breaks, escape]
    have moved : splitter.read (byte :: rest) = (splitter.keep byte).read rest := by
      rw [← kept]
      rfl
    have open' : (splitter.keep byte).escaped = false := outside
    rw [moved, ih open' later, keep, List.reverse_cons, List.append_assoc]
    rfl

/-! ## Line ends -/

/-- The lines that a text ends when it is printed: a newline always ends one, and a form feed does
outside escape bytes. -/
def lineEnds : (escaped : Bool) → Text → Nat
  | _, [] => 0
  | escaped, byte :: rest =>
    if byte = escapeByte then lineEnds (!escaped) rest
    else if byte = newline ∨ escaped = false ∧ byte = 12 then lineEnds escaped rest + 1
    else lineEnds escaped rest

/-- Whether a text ends inside escape bytes. -/
def endsEscaped (escaped : Bool) (text : Text) : Bool :=
  text.foldl (fun escaped byte => if byte = escapeByte then !escaped else escaped) escaped

/-- Escapes are opened and closed in order. -/
theorem endsEscaped_append (escaped : Bool) (left right : Text) :
    endsEscaped escaped (left ++ right) = endsEscaped (endsEscaped escaped left) right :=
  List.foldl_append

/-- The line ends of two texts in a row add up. -/
theorem lineEnds_append (escaped : Bool) (left right : Text) :
    lineEnds escaped (left ++ right) =
      lineEnds escaped left + lineEnds (endsEscaped escaped left) right := by
  induction left generalizing escaped with
  | nil => simp [lineEnds, endsEscaped]
  | cons byte rest ih =>
    rw [List.cons_append, lineEnds, lineEnds, endsEscaped, List.foldl_cons]
    split_ifs
    · exact ih _
    · rw [ih, endsEscaped]
      omega
    · exact ih _

/-- An even number of escape bytes changes nothing, an odd number opens or closes. -/
theorem endsEscaped_eq (escaped : Bool) (text : Text) :
    endsEscaped escaped text = (escaped ^^ decide (Odd (text.count escapeByte))) := by
  induction text generalizing escaped with
  | nil => simp [endsEscaped]
  | cons byte rest ih =>
    rw [endsEscaped, List.foldl_cons, ← endsEscaped, ih, List.count_cons]
    by_cases escape : byte = escapeByte
    · have turned : decide (Odd (List.count escapeByte rest + 1)) =
          !decide (Odd (List.count escapeByte rest)) := by
        rw [← decide_not, decide_eq_decide]
        exact Nat.odd_add_one
      rw [escape, if_pos rfl, if_pos (beq_self_eq_true _), turned]
      cases escaped <;> simp
    · simp [escape]

/-- Plain bytes end no line. -/
theorem lineEnds_plain (escaped : Bool) {text : Text} (plain : ∀ byte ∈ text, IsPlain byte) :
    lineEnds escaped text = 0 := by
  induction text with
  | nil => rfl
  | cons byte rest ih =>
    obtain ⟨⟨_, ends, _, breaks, escape⟩, later⟩ := List.forall_mem_cons.mp plain
    rw [lineEnds, if_neg escape, if_neg (by simp [newline, ends, breaks]), ih later]

/-- Where no line ends there is no newline. -/
theorem newline_notMem_of_lineEnds {escaped : Bool} {text : Text}
    (none : lineEnds escaped text = 0) : newline ∉ text := by
  induction text generalizing escaped with
  | nil => exact List.not_mem_nil
  | cons byte rest ih =>
    rw [lineEnds] at none
    split_ifs at none with escape ends
    · have other : newline ≠ byte := by
        rw [escape]
        decide
      exact List.not_mem_cons_of_ne_of_not_mem other (ih none)
    · obtain ⟨other, _⟩ := not_or.mp ends
      exact List.not_mem_cons_of_ne_of_not_mem (Ne.symm other) (ih none)

namespace Splitter

/-- The line ends that a splitter has met, in its lines and in the open one. -/
def met (splitter : Splitter) : Nat :=
  (splitter.allLines.map fun line => lineNewlines line + 1).sum + lineNewlines splitter.cells +
    splitter.current.newlines

/-- The current cell has the newlines of its bytes. -/
theorem newlines_cell (splitter : Splitter) :
    splitter.cell.text.newlines = splitter.current.newlines := by
  rw [cell, Text.newlines, List.count_reverse]
  rfl

/-- A line that is ended counts once more. -/
theorem met_endLine (splitter : Splitter) : splitter.endLine.met = splitter.met + 1 := by
  have own : lineNewlines (splitter.cell :: splitter.cells).reverse =
      splitter.current.newlines + lineNewlines splitter.cells := by
    rw [lineNewlines, List.map_reverse, List.sum_reverse, List.map_cons, List.sum_cons,
      newlines_cell, lineNewlines]
  have fresh : splitter.endLine.current.newlines = 0 ∧
      lineNewlines splitter.endLine.cells = 0 := ⟨rfl, rfl⟩
  rw [met, met, allLines_endLine, List.map_append, List.sum_append, fresh.1, fresh.2,
    List.map_singleton, List.sum_singleton, own]
  omega

/-- Reading one byte meets the line end that it may be. -/
theorem met_step (splitter : Splitter) (byte : UInt8) :
    (splitter.step byte).met = splitter.met + lineEnds splitter.escaped [byte] := by
  have kept (other : byte ≠ newline) : (splitter.keep byte).met = splitter.met := by
    simp [met, keep, Text.newlines, List.count_cons_of_ne other, allLines]
  rcases splitter.step_cases byte with ⟨escape, moved⟩ | ⟨other, kind, moved⟩ |
    ⟨outside, tab, moved⟩ | ⟨outside, rfl, moved⟩ | ⟨outside, rfl, moved⟩
  · have plain : byte ≠ newline := by
      rw [escape]
      decide
    have same : (splitter.step byte).met = (splitter.keep byte).met := by
      rw [moved]
      rfl
    rw [same, kept plain, lineEnds, if_pos escape, lineEnds, Nat.add_zero]
  · rw [moved]
    by_cases ends : byte = newline
    · simp [met, keep, lineEnds, ends, escapeByte, newline, Text.newlines, allLines]
      omega
    · have stays : ¬(byte = newline ∨ splitter.escaped = false ∧ byte = 12) := by
        rintro (same | ⟨outside, breaks⟩)
        · exact ends same
        · rcases kind with inside | ⟨_, _, _, unbroken⟩
          · rw [outside] at inside
            contradiction
          · exact unbroken breaks
      rw [kept ends, lineEnds, if_neg other, if_neg stays, lineEnds, Nat.add_zero]
  · have ends : lineEnds splitter.escaped [byte] = 0 := by
      rcases tab with rfl | rfl <;> simp [lineEnds, escapeByte, newline]
    rw [moved, ends, met, met, allLines_endCell]
    have own : lineNewlines splitter.endCell.cells =
        splitter.current.newlines + lineNewlines splitter.cells := by
      rw [endCell, lineNewlines, List.map_cons, List.sum_cons, newlines_cell, lineNewlines]
    have fresh : splitter.endCell.current.newlines = 0 := rfl
    rw [own, fresh]
    omega
  · rw [moved, met_endLine]
    simp [lineEnds, escapeByte, newline]
  · have same : splitter.endLine.endBlock.met = splitter.endLine.met := by
      rw [met, met, allLines_endBlock]
      rfl
    rw [moved, same, met_endLine, outside]
    simp [lineEnds, escapeByte]

/-- Reading one byte tells whether the text is inside escape bytes. -/
theorem escaped_step (splitter : Splitter) (byte : UInt8) :
    (splitter.step byte).escaped = endsEscaped splitter.escaped [byte] := by
  rcases splitter.step_cases byte with ⟨escape, moved⟩ | ⟨other, _, moved⟩ |
    ⟨outside, tab, moved⟩ | ⟨outside, rfl, moved⟩ | ⟨outside, rfl, moved⟩
  · rw [moved]
    simp [endsEscaped, escape]
  · rw [moved]
    simp [endsEscaped, other, keep]
  · rw [moved]
    rcases tab with rfl | rfl <;> simp [endsEscaped, escapeByte, endCell]
  · rw [moved]
    simp [endsEscaped, escapeByte, endCell, endLine]
  · rw [moved]
    simp [endsEscaped, escapeByte, endCell, endLine, endBlock]

/-- Reading a text tells whether the text is inside escape bytes. -/
theorem escaped_read (splitter : Splitter) (text : Text) :
    (splitter.read text).escaped = endsEscaped splitter.escaped text := by
  induction text generalizing splitter with
  | nil => rfl
  | cons byte rest ih =>
    have moved : splitter.read (byte :: rest) = (splitter.step byte).read rest := rfl
    rw [moved, ih, escaped_step]
    rfl

/-- Reading a text meets its line ends. -/
theorem met_read (splitter : Splitter) (text : Text) :
    (splitter.read text).met = splitter.met + lineEnds splitter.escaped text := by
  induction text generalizing splitter with
  | nil => rfl
  | cons byte rest ih =>
    have moved : splitter.read (byte :: rest) = (splitter.step byte).read rest := rfl
    have split : lineEnds splitter.escaped (byte :: rest) =
        lineEnds splitter.escaped [byte] + lineEnds (endsEscaped splitter.escaped [byte]) rest :=
      lineEnds_append splitter.escaped [byte] rest
    rw [moved, ih, met_step, escaped_step, split, Nat.add_assoc]

end Splitter

/-! ## Rows -/

/-- A first cell without separators, and other cells in which every escape that is opened is
closed. -/
structure Row where
  head : Text
  tail : Text
  plain : ∀ byte ∈ head, IsPlain byte
  paired : Even (tail.count escapeByte)

namespace Row

variable (row : Row)

/-- The bytes of a row. -/
def text : Text :=
  row.head ++ 9 :: (row.tail ++ [newline])

/-- The lines of a row as the splitter finds them: the first one starts with the first cell and has
another one, and there are as many line ends as in the other cells, and one more. -/
def Splits (lines : List (List Cell)) : Prop :=
  ∃ first next rest later, lines = (first :: next :: rest) :: later ∧ first.text = row.head ∧
    (lines.map fun line => lineNewlines line + 1).sum = lineEnds false row.tail + 1

/-- What a row is printed as: its first cell, two spaces and the rest, in which every line end of
the other cells is a newline. -/
def Prints (block : Text) : Prop :=
  ∃ shown, block = row.head ++ (Text.spaces padding ++ (shown ++ [newline])) ∧
    shown.newlines = lineEnds false row.tail

/-- A row closes its escapes. -/
theorem endsEscaped_tail : endsEscaped false row.tail = false := by
  have even := Nat.not_odd_iff_even.mpr row.paired
  simp [endsEscaped_eq, even]

/-- A first cell opens no escape. -/
theorem endsEscaped_head : endsEscaped false row.head = false := by
  have none : row.head.count escapeByte = 0 :=
    List.count_eq_zero.mpr fun member => (row.plain _ member).2.2.2.2 rfl
  simp [endsEscaped_eq, none]

/-- The line ends of a row are those of its other cells and one more. -/
theorem lineEnds_text : lineEnds false row.text = lineEnds false row.tail + 1 := by
  have tab : lineEnds false (9 :: (row.tail ++ [newline])) =
      lineEnds false (row.tail ++ [newline]) := by
    simp [lineEnds, escapeByte, newline]
  have last : lineEnds false [newline] = 1 := by
    simp [lineEnds, escapeByte, newline]
  rw [text, lineEnds_append, lineEnds_plain false row.plain, row.endsEscaped_head, tab,
    lineEnds_append, row.endsEscaped_tail, last, Nat.zero_add]

/-- A row that is read by itself ends at the start of a line, and its lines are its own. -/
theorem read_text : (Splitter.read {} row.text).AtLineStart ∧
    row.Splits (Splitter.read {} row.text).allLines := by
  obtain ⟨first, same, opened⟩ : ∃ first : Cell, first.text = row.head ∧
      Splitter.read {} (row.head ++ [9]) = { cells := [first] } := by
    rw [Splitter.read_append, Splitter.read_plain rfl row.plain]
    exact ⟨_, by simp [Splitter.cell], rfl⟩
  have whole : row.text = (row.head ++ [9] ++ row.tail) ++ [newline] := by simp [text]
  generalize reached : Splitter.read {} (row.head ++ [9] ++ row.tail) = splitter
  have outside : splitter.escaped = false := by
    have tab : endsEscaped false [9] = false := rfl
    rw [← reached, Splitter.escaped_read, endsEscaped_append, endsEscaped_append,
      row.endsEscaped_head, tab, row.endsEscaped_tail]
  have ended : Splitter.read {} row.text = splitter.endLine := by
    have last : splitter.step newline = splitter.endLine := by
      simp [Splitter.step, outside, newline, escapeByte]
    rw [whole, Splitter.read_append, reached]
    exact last
  have opens : splitter.endLine.Opens first := by
    have fresh : (Splitter.read {} (row.head ++ [9])).Opens first := by
      rw [opened]
      exact .inl ⟨rfl, rfl⟩
    have later := fresh.read row.tail
    rw [← Splitter.read_append, reached] at later
    exact later.endLine
  have counted : (splitter.endLine.allLines.map fun line => lineNewlines line + 1).sum =
      lineEnds false row.tail + 1 := by
    have met := Splitter.met_read {} row.text
    rw [ended, row.lineEnds_text] at met
    simpa [Splitter.met, Splitter.allLines, lineNewlines, Splitter.endLine, Splitter.endCell,
      Text.newlines] using met
  rw [ended]
  refine ⟨⟨rfl, outside, rfl⟩, ?_⟩
  rcases opens with ⟨_, found⟩ | ⟨next, rest, later, found⟩
  · contradiction
  · exact ⟨first, next, rest, later, found, same, counted⟩

/-- Rows that are read from the start of a line on add their own lines, row by row. -/
theorem read_rows {splitter : Splitter} (starts : splitter.AtLineStart) (rows : List Row) :
    (splitter.read (rows.flatMap text)).AtLineStart ∧
      ∃ groups, (splitter.read (rows.flatMap text)).allLines =
        splitter.allLines ++ groups.flatten ∧ List.Forall₂ Splits rows groups := by
  induction rows generalizing splitter with
  | nil => exact ⟨starts, [], (List.append_nil _).symm, .nil⟩
  | cons row rows ih =>
    obtain ⟨alone, splits⟩ := row.read_text
    obtain ⟨current, escaped, cells, lines⟩ := starts.continues.read row.text
    have next : (splitter.read row.text).AtLineStart :=
      ⟨current.trans alone.current, escaped.trans alone.escaped, cells.trans alone.cells⟩
    obtain ⟨ends, groups, found, others⟩ := ih next
    rw [List.flatMap_cons, Splitter.read_append]
    refine ⟨ends, _ :: groups, ?_, .cons splits others⟩
    rw [found, lines, List.flatten_cons, List.append_assoc]

end Row

/-- A text that ends at the start of a line is printed line by line. -/
theorem exists_align {text : Text} (starts : (Splitter.read {} text).AtLineStart) :
    ∃ printed, List.Forall₂ Padded (Splitter.read {} text).allLines printed ∧
      align text = printed.flatMap (· ++ [newline]) := by
  generalize found : Splitter.read {} text = splitter at starts
  let laid (lines : List (List Cell)) : List Text := layout (depth lines) lines
  have padded (lines : List (List Cell)) : List.Forall₂ Padded lines (laid lines) :=
    padded_layout (le_foldl_max List.length lines 0).2
  refine ⟨splitter.blocks.reverse.flatMap laid ++ laid splitter.lines.reverse, ?_, ?_⟩
  · refine List.rel_append ?_ (padded _)
    rw [List.flatMap]
    refine List.rel_flatten (List.forall₂_map_right_iff.mpr (List.forall₂_same.mpr ?_))
    exact fun lines _ => padded lines
  · have last : splitter.openLines = splitter.lines.reverse := by
      simp [Splitter.openLines, starts.current, starts.cells]
    have read : text.foldl Splitter.step {} = splitter := found
    rw [align, read, last, List.flatMap_append, List.flatMap_assoc]
    simp only [starts.current, starts.cells, List.isEmpty_nil, Bool.and_self, if_true]
    rfl

/-- What is printed for the lines of one list and another is printed for one, then the other. -/
theorem exists_append_of_forall₂ {left right : List (List Cell)} {printed : List Text}
    (padded : List.Forall₂ Padded (left ++ right) printed) :
    ∃ first second, printed = first ++ second ∧ List.Forall₂ Padded left first ∧
      List.Forall₂ Padded right second := by
  induction left generalizing printed with
  | nil => exact ⟨[], printed, rfl, .nil, padded⟩
  | cons line left ih =>
    cases padded with
    | cons own others =>
      obtain ⟨first, second, rfl, before, after⟩ := ih others
      exact ⟨_ :: first, second, rfl, .cons own before, after⟩

/-- Lines that are printed one by one have the newlines of their cells, and one more each. -/
theorem newlines_printed {lines : List (List Cell)} {printed : List Text}
    (padded : List.Forall₂ Padded lines printed) :
    Text.newlines (printed.flatMap (· ++ [newline])) =
      (lines.map fun line => lineNewlines line + 1).sum := by
  induction padded with
  | nil => rfl
  | cons own others ih =>
    have last : Text.newlines [newline] = 1 := by decide
    rw [List.flatMap_cons, Text.newlines_append, Text.newlines_append, own.newlines, ih, last,
      List.map_cons, List.sum_cons]

/-- The lines of a row are printed as its block. -/
theorem Row.Splits.prints {row : Row} {lines : List (List Cell)} {printed : List Text}
    (splits : row.Splits lines) (padded : List.Forall₂ Padded lines printed) :
    row.Prints (printed.flatMap (· ++ [newline])) := by
  have counted := newlines_printed padded
  obtain ⟨first, next, rest, later, rfl, same, ends⟩ := splits
  rw [ends] at counted
  cases padded with
  | @cons _ line _ others own more =>
    cases own with
    | @cons _ _ _ shown gap wide _ =>
      obtain ⟨body, closed⟩ : ∃ body,
          newline :: others.flatMap (· ++ [newline]) = body ++ [newline] := by
        rcases List.eq_nil_or_concat others with rfl | ⟨front, last, rfl⟩
        · exact ⟨[], rfl⟩
        · exact ⟨newline :: (front.flatMap (· ++ [newline]) ++ last), by simp⟩
      have room : Text.spaces gap = Text.spaces padding ++ Text.spaces (gap - padding) := by
        rw [Text.spaces, Text.repeated, Text.spaces, Text.spaces, Text.repeated, Text.repeated,
          List.replicate_append_replicate, Nat.add_sub_cancel' wide]
      have block : List.flatMap (· ++ [newline])
            ((first.text ++ Text.spaces gap ++ shown) :: others) =
          row.head ++ (Text.spaces padding ++
            ((Text.spaces (gap - padding) ++ shown ++ body) ++ [newline])) := by
        rw [List.flatMap_cons, List.append_assoc _ [newline], List.singleton_append, closed, same,
          room]
        simp only [List.append_assoc]
      have head : row.head.newlines = 0 :=
        List.count_eq_zero.mpr fun member => (row.plain _ member).2.1 rfl
      have last : Text.newlines [newline] = 1 := rfl
      rw [block] at counted ⊢
      refine ⟨_, rfl, ?_⟩
      rw [Text.newlines_append, Text.newlines_append, Text.newlines_append, head, newlines_spaces,
        last] at counted
      omega

/-- Rows are printed block by block, in order. -/
theorem exists_align_rows (rows : List Row) :
    ∃ blocks, align (rows.flatMap Row.text) = blocks.flatten ∧
      List.Forall₂ Row.Prints rows blocks := by
  have fresh : Splitter.AtLineStart {} := ⟨rfl, rfl, rfl⟩
  obtain ⟨starts, groups, found, splits⟩ := Row.read_rows fresh rows
  obtain ⟨printed, padded, aligned⟩ := exists_align starts
  rw [found] at padded
  have nothing : Splitter.allLines {} = [] := rfl
  rw [nothing, List.nil_append] at padded
  rw [aligned]
  clear found aligned starts fresh
  induction splits generalizing printed with
  | nil =>
    cases padded
    exact ⟨[], rfl, .nil⟩
  | cons own others ih =>
    obtain ⟨first, second, rfl, before, after⟩ := exists_append_of_forall₂ padded
    obtain ⟨blocks, joined, prints⟩ := ih second after
    refine ⟨_ :: blocks, ?_, .cons (own.prints before) prints⟩
    rw [List.flatMap_append, joined, List.flatten_cons]

end Aml.Columns
