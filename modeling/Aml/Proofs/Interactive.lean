import Mathlib
import Aml.Interactive
import Aml.Proofs.Scan.Lines
import Aml.Proofs.Text.Line
import Aml.Proofs.Token

/-!
# The interactive tokenizer and the whole scan

The interactive tokenizer cuts its input at newlines, drops a carriage return before each, and scans
every piece by itself. For a source that is scanned without an error and has no newline in a token,
this finds the tokens of the whole scan: by induction on the lines, the scan from the start of a
line is the scan of that line and then that of what follows (`Interactive.exists_blocks`). Since the
text of such a token is one line, what is printed for a line of the source is a prompt and one line
for each of its tokens (`Interactive.run_eq_listings`).
-/
namespace Aml

open Text (newline)

/-- A token is shown in the same way wherever it stands. -/
theorem Token.render_shift (move : Displacement) (token : Token) :
    (token.shift move).render = token.render := rfl

namespace Interactive

/-! ## Lines of an input -/

/-- A line in front is the first one of an input. -/
theorem inputLines_cons {line : Text} (inline : newline ∉ line) (rest : Text) :
    inputLines (line ++ newline :: rest) = line :: inputLines rest := by
  unfold inputLines
  rw [Text.lines_cons inline]
  dsimp only
  rw [List.getLast?_cons_of_ne_nil rest.lines_ne_nil,
    List.dropLast_cons_of_ne_nil rest.lines_ne_nil]
  split <;> rfl

/-- An input without a newline is one line when it is not empty. -/
theorem inputLines_of_inline {line : Text} (inline : newline ∉ line) :
    inputLines line = if line = [] then [] else [line] := by
  unfold inputLines
  rw [Text.lines_of_inline inline]
  simp

/-- The lines of an input are lines of the text. -/
theorem mem_lines_of_mem_inputLines {line input : Text} (member : line ∈ inputLines input) :
    line ∈ input.lines := by
  unfold inputLines at member
  dsimp only at member
  split at member
  · exact List.mem_of_mem_dropLast member
  · exact member

/-! ## What is printed -/

/-- Tokens as they are listed, one on a line. -/
def listing (tokens : List Token) : Text :=
  tokens.flatMap fun token => token.render ++ [newline]

/-- Lines that can all be read are answered one after the other, each after a prompt. -/
theorem runLines_eq (scanner : Scanner) (color : Bool) {lines : List Text}
    (short : ∀ line ∈ lines, line.length < lineLimit) (printed : List Text) :
    runLines scanner color lines printed =
      (printed.reverse.flatten ++
        (lines.flatMap fun line =>
          Text.ofString prompt ++ respond scanner color (withoutReturn line)) ++
        (Text.ofString prompt ++ Text.ofString "\n"), none) := by
  induction lines generalizing printed with
  | nil => simp [runLines]
  | cons line rest ih =>
    obtain ⟨first, others⟩ := List.forall_mem_cons.mp short
    rw [runLines, if_neg (by omega), ih others]
    simp

variable {table : KeywordTable} {position : Position} {counter final : Int} {tokens : List Token}

/-- The tokens of a line are listed, whether or not a carriage return ends it. -/
theorem respond_eq {line : Text}
    (scans : (Scanner.language table).Scans line.characters position counter tokens final none)
    (first : position.column = 1) (color : Bool) :
    respond (Scanner.language table) color (withoutReturn line) = listing tokens := by
  obtain ⟨last, scans⟩ : ∃ last, (Scanner.language table).Scans (withoutReturn line).characters
      position counter tokens last none := by
    unfold withoutReturn
    split
    · next ended =>
      obtain ⟨front, rfl⟩ := List.getLast?_eq_some_iff.mp ended
      have cut : Text.characters (front ++ [13]) =
          Text.characters front ++ [Character.ofByte 13] :=
        Text.characters_append (.inr (by simp [Text.isContinuation]))
      have sound := Text.sound_of_mem_characters (front ++ [13])
      rw [cut] at scans sound
      rw [List.dropLast_concat]
      exact scans.without_return rfl sound
    · exact ⟨final, scans⟩
  obtain ⟨alone, move, scanned, rfl⟩ := scans.scan_eq first
  rw [respond, scanned, listing, List.flatMap_map]
  simp only [Token.render_shift]

/-- A scan from the start of a line gives every line of the rest a block of tokens, which stand on
that line and are what is printed for it. -/
theorem exists_blocks {source : Text}
    (scans : (Scanner.language table).Scans source.characters position counter tokens final none)
    (first : position.column = 1) (single : ∀ token ∈ tokens, newline ∉ token.lexeme) :
    ∃ blocks : List (List Token), blocks.length = source.lineCount ∧ blocks.flatten = tokens ∧
      (∀ (index : Nat) (block : List Token), blocks[index]? = some block →
        ∀ token ∈ block, token.position.line = position.line + index) ∧
      ∀ color, (inputLines source).map
          (fun line => respond (Scanner.language table) color (withoutReturn line)) =
        blocks.map listing := by
  have placed {line : Text} (inline : newline ∉ line) :
      (Text.ofCharacters line.characters).newlines = 0 := by
    rw [Text.ofCharacters_characters]
    exact List.count_eq_zero.mpr inline
  induction source using Text.induction_on_lines generalizing position counter tokens with
  | last line inline =>
    rw [Text.lineCount_of_inline inline, inputLines_of_inline inline]
    by_cases empty : line = []
    · subst empty
      obtain ⟨rfl, _⟩ := scans.unique (.finished _ _)
      exact ⟨[], by simp⟩
    · refine ⟨[tokens], by simp [empty], by simp, fun index block found => ?_, fun color => ?_⟩
      · obtain ⟨rfl, rfl⟩ : index = 0 ∧ tokens = block := by
          simpa [List.getElem?_singleton] using found
        simpa using scans.line_eq (placed inline)
      · rw [if_neg empty, List.map_singleton, List.map_singleton, respond_eq scans first]
  | cons line rest inline ih =>
    have cut : (line ++ newline :: rest).characters =
        line.characters ++ Character.ofByte newline :: rest.characters := by
      rw [Text.characters_append (.inr (by simp [Text.isContinuation, newline])),
        Text.characters_cons_ascii (by decide)]
    have sound := Text.sound_of_mem_characters (line ++ newline :: rest)
    rw [cut] at scans sound
    obtain ⟨earlier, later, reached, next, rfl, front, back⟩ :=
      scans.cut_line rfl (Text.isNewline_eq_false inline) sound single
    have ended : Text.ofCharacters (line.characters ++ [Character.ofByte newline]) =
        line ++ [newline] := by
      simp
    rw [ended] at back
    have newlines : (line ++ [newline]).newlines = 1 := by
      rw [Text.newlines_append, Text.newlines, List.count_eq_zero.mpr inline]
      rfl
    have column : (position.advance (line ++ [newline])).column = 1 := by
      rw [Position.advance, if_neg (by omega), Text.lastLine_cons]
      rfl
    obtain ⟨blocks, counted, joined, lined, printed⟩ :=
      ih back column fun token member => single token (List.mem_append_right _ member)
    refine ⟨earlier :: blocks, ?_, ?_, fun index block found => ?_, fun color => ?_⟩
    · rw [List.length_cons, counted, Text.lineCount_cons inline]
    · rw [List.flatten_cons, joined]
    · cases index with
      | zero =>
        obtain rfl : earlier = block := by simpa using found
        simpa using front.line_eq (placed inline)
      | succ index =>
        intro token member
        rw [lined index block (by simpa using found) token member, Position.advance_line, newlines]
        push_cast
        ring
    · rw [inputLines_cons inline, List.map_cons, List.map_cons, printed, respond_eq front first]

/-- The interactive tokenizer agrees with the whole scan. A source that is scanned without an error,
with no newline in a token and no line that is too long, is read to its end without a fault, and one
block is printed for each of its lines: a prompt and the tokens that stand on that line, one on a
line of its own. The blocks list the tokens of the scan in order and nothing else; a prompt and a
newline come after them. -/
theorem run_eq_listings {table : Option KeywordTable} {scanner : Scanner}
    (built : Scanner.build table Rule.defaults = .ok scanner) {source : Text}
    (scanned : scanner.scan source = .ok tokens)
    (single : ∀ token ∈ tokens, newline ∉ token.lexeme)
    (short : ∀ line ∈ source.lines, line.length < 65536) :
    ∃ blocks : List (List Token), blocks.length = source.lineCount ∧ blocks.flatten = tokens ∧
      (∀ (index : Nat) (block : List Token), blocks[index]? = some block →
        ∀ token ∈ block, token.position.line = index + 1) ∧
      (∀ token ∈ tokens, newline ∉ token.render) ∧
      ∀ color, run scanner color source =
        (blocks.flatMap (fun block => Text.ofString prompt ++ listing block) ++
          (Text.ofString prompt ++ Text.ofString "\n"), none) := by
  obtain ⟨words, _, rfl⟩ := Scanner.language_of_built built
  have scans := Scanner.language_scans words source
  rw [Scanner.scan_eq_ok_iff.mp scanned] at scans
  obtain ⟨blocks, counted, joined, lined, printed⟩ := exists_blocks scans rfl single
  refine ⟨blocks, counted, joined, fun index block found token member => ?_, ?_, fun color => ?_⟩
  · rw [lined index block found token member, Int.add_comm]
    rfl
  · intro token member
    obtain ⟨spelling, same⟩ :=
      scans.exists_spelling (by rw [Text.ofCharacters_characters]) token member
    have inline := single token member
    rw [same] at inline ⊢
    exact spelling.newline_notMem_render inline _ _ _
  · rw [run, runLines_eq _ _ fun line member => short line (mem_lines_of_mem_inputLines member)]
    have blocked : (inputLines source).flatMap (fun line => Text.ofString prompt ++
          respond (Scanner.language words) color (withoutReturn line)) =
        blocks.flatMap fun block => Text.ofString prompt ++ listing block := by
      have answers := congrArg (List.flatMap fun answer => Text.ofString prompt ++ answer)
        (printed color)
      rwa [List.flatMap_map, List.flatMap_map] at answers
    rw [blocked, List.reverse_nil, List.flatten_nil, List.nil_append]

/-- A comment before a carriage return, an empty line and a name that ends the input. -/
theorem run_eq_listings_return :
    (Scanner.language .empty).scan (Text.ofString "#x\r\n\nab") =
        .ok [⟨.operand .identifier, "ab", some (.string "ab"), 3, ⟨3, 1, 5⟩⟩] ∧
      ∃ blocks : List (List Token), blocks.length = 3 ∧
        blocks.flatten = [⟨.operand .identifier, "ab", some (.string "ab"), 3, ⟨3, 1, 5⟩⟩] ∧
        run (Scanner.language .empty) false (Text.ofString "#x\r\n\nab") =
          (blocks.flatMap (fun block => Text.ofString prompt ++ listing block) ++
            (Text.ofString prompt ++ Text.ofString "\n"), none) := by
  have scanned : (Scanner.language .empty).scan (Text.ofString "#x\r\n\nab") =
      .ok [⟨.operand .identifier, "ab", some (.string "ab"), 3, ⟨3, 1, 5⟩⟩] := by rfl
  obtain ⟨blocks, counted, joined, _, _, printed⟩ :=
    run_eq_listings (Scanner.build_defaults .empty) scanned (by decide) (by decide)
  exact ⟨scanned, blocks, counted, joined, printed false⟩

end Interactive

end Aml
