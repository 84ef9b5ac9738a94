import Mathlib
import Aml.Proofs.Scan.Concatenation
import Aml.Proofs.Scan.LogicalLine

/-!
# Scanning line by line

What a rule takes does not change when the text after it is cut short (`Lexis.Takes.truncate`), and
besides strings only a run of newlines takes a newline. So a scan without an error, none of whose
tokens has a newline in it, is a scan of its first line and then a scan of what follows the newline
(`Scanner.Scans.cut_line`). A carriage return at the end of a line is the end of a comment, and
can be left out (`Scanner.Scans.without_return`). A line that is scanned in the first column is
scanned as the same tokens by itself (`Scanner.Scans.scan_eq`).
-/
namespace Aml

/-! ## Cutting short -/

namespace Lexis

variable {rule : Rule} {taken rest more : List Character}

/-- What stops a class stops it without what follows. -/
theorem Stops.of_append {holds : Character → Bool} (stops : Stops holds (rest ++ more)) :
    Stops holds rest := by
  cases rest with
  | nil => exact stops_nil holds
  | cons first others => exact stops_cons.mpr (stops_cons.mp stops)

/-- A text that starts no fraction starts none when it is cut short. -/
theorem fraction?_eq_none_of_append (pointless : fraction? (rest ++ more) = none) :
    fraction? rest = none := by
  cases rest with
  | nil => rfl
  | cons first others =>
    rw [List.cons_append, fraction?] at pointless
    rw [fraction?]
    split at pointless
    · rw [if_pos ‹_›]
      rw [Option.map_eq_none_iff, digits?, headed?_eq_none_iff] at pointless ⊢
      exact pointless.of_append
    · rw [if_neg ‹_›]

/-- A match stays as it is when what follows it is cut short. -/
theorem Takes.truncate (takes : Takes rule taken (rest ++ more)) : Takes rule taken rest := by
  cases takes with
  | string opens inner closes => exact .string opens inner closes
  | real signed digits pointed places stops =>
    exact .real signed digits pointed places stops.of_append
  | integer signed digits stops pointless =>
    exact .integer signed digits stops.of_append (fraction?_eq_none_of_append pointless)
  | name starts goesOn stops => exact .name starts goesOn stops.of_append
  | comment marked inner stops => exact .comment marked inner stops.of_append
  | newlines present all stops => exact .newlines present all stops.of_append
  | blanks present all stops => exact .blanks present all stops.of_append
  | operator spelled longest unsigned =>
    refine .operator spelled (fun other starts => longest other ?_)
      fun minus => (unsigned minus).of_append
    rw [startsWith_iff] at starts ⊢
    rw [← List.append_assoc, List.map_append]
    exact starts.trans (List.prefix_append _ _)

/-- A suppressed match with a newline is a run of newlines. -/
theorem Takes.newlines_of_suppress (takes : Takes rule taken rest)
    (suppressed : rule.suppress = true) {character : Character} (member : character ∈ taken)
    (ends : character.isNewline) : ∀ character ∈ taken, character.isNewline := by
  cases takes with
  | newlines _ all => exact all
  | @comment mark body _ marked inner =>
    rw [isNewline_of_comment marked inner character member] at ends
    contradiction
  | blanks _ all =>
    have := Character.isBlank_iff.mp (all character member)
    have := Character.isNewline_iff.mp ends
    omega
  | string | real | integer | name => contradiction
  | operator => contradiction

/-- What is skipped is a suppressed match, and its newlines are counted. -/
theorem Takes.of_read_skipped (takes : Takes rule taken rest)
    (sound : ∀ character ∈ taken, character.Sound) {table : KeywordTable} {line next : Int}
    {position : Position}
    (read : Piece.read ⟨rule, Text.ofCharacters taken, position⟩ table line = .skipped next) :
    rule.suppress = true ∧ next = line + (Text.ofCharacters taken).newlines := by
  obtain ⟨suppressed, skipped⟩ | ⟨_, _, _, made⟩ | ⟨_, _, _, failed⟩ :=
    takes.read sound table line position
  · exact ⟨suppressed, Reading.skipped.inj (read.symm.trans skipped)⟩
  · cases read.symm.trans made
  · cases read.symm.trans failed

/-- A match that ends a text with a carriage return is a comment. -/
theorem Takes.comment_of_return {front : List Character} {mark : Character}
    (takes : Takes rule (front ++ [mark]) []) (returns : mark.scalar.toNat = 13) :
    rule = Rule.comment ∧ Takes Rule.comment front [] := by
  generalize whole : front ++ [mark] = taken at takes
  have member : mark ∈ taken := whole ▸ List.mem_append_right front List.mem_cons_self
  have graphic := takes.graphic
  cases takes with
  | @string opening closing body _ opens inner closes =>
    have last := congrArg List.getLast? whole
    rw [← List.cons_append, List.getLast?_concat, List.getLast?_concat] at last
    rw [Option.some.inj last, closes] at returns
    contradiction
  | real | integer | name =>
    have := graphic rfl (mt (congrArg Rule.name) (by decide)) mark member
    omega
  | @operator operator =>
    have := graphic rfl (mt (congrArg Rule.name) (by cases operator <;> decide)) mark member
    omega
  | newlines _ all =>
    have := Character.isNewline_iff.mp (all mark member)
    omega
  | blanks _ all =>
    have := Character.isBlank_iff.mp (all mark member)
    omega
  | @comment opening body _ marked inner =>
    refine ⟨rfl, ?_⟩
    cases front with
    | nil =>
      rw [(List.cons.inj whole).1, marked] at returns
      contradiction
    | cons first others =>
      obtain ⟨rfl, rfl⟩ := List.cons.inj whole
      exact .comment marked (List.forall_mem_append.mp inner).1 (stops_nil _)

end Lexis

namespace Scanner

open Lexis

variable {table : KeywordTable} {position : Position} {line final : Int} {tokens : List Token}
  {error : Option ScanError}

/-- What is taken in front of a text with a mark in it ends before the mark or takes it. -/
theorem append_eq_append_cons {taken rest front back : List Character} {mark : Character}
    (same : taken ++ rest = front ++ mark :: back) :
    (∃ middle, front = taken ++ middle ∧ rest = middle ++ mark :: back) ∨
      ∃ run, taken = front ++ mark :: run ∧ back = run ++ rest := by
  obtain ⟨middle, rfl, rfl⟩ | ⟨middle, rfl, left⟩ := List.append_eq_append_iff.mp same
  · exact .inl ⟨middle, rfl, rfl⟩
  · cases middle with
    | nil => exact .inl ⟨[], by simp, by simpa using left.symm⟩
    | cons first run =>
      obtain ⟨rfl, rfl⟩ := List.cons.inj left
      exact .inr ⟨run, rfl, rfl⟩

/-- After a match that ends before a mark, the place past the mark is that past both in one go. -/
theorem advance_before {taken middle back : List Character} {mark : Character} {rule : Rule}
    (takes : Takes rule taken (middle ++ mark :: back))
    (sound : ∀ character ∈ taken ++ (middle ++ mark :: back), character.Sound)
    (position : Position) :
    (position.advance (Text.ofCharacters taken)).advance (Text.ofCharacters (middle ++ [mark])) =
      position.advance (Text.ofCharacters (taken ++ middle ++ [mark])) := by
  rw [List.append_cons] at takes sound
  rw [← List.append_assoc] at sound
  have seam := takes.truncate.separate (List.forall_mem_append.mp sound).1
  rw [position.advance_append seam, ← Text.ofCharacters_append, List.append_assoc]

/-- What a run of newlines leaves can be scanned from after its first newline on. -/
theorem Scans.uncons_newline {mark : Character} {run rest : List Character}
    (all : ∀ character ∈ mark :: run, character.isNewline)
    (sound : ∀ character ∈ mark :: (run ++ rest), character.Sound)
    (later : (language table).Scans rest (position.advance (Text.ofCharacters (mark :: run)))
      (line + (Text.ofCharacters (mark :: run)).newlines) tokens final error) :
    (language table).Scans (run ++ rest) (position.advance mark.bytes)
      (line + mark.bytes.newlines) tokens final error := by
  obtain ⟨first, others⟩ := List.forall_mem_cons.mp all
  obtain ⟨known, remaining⟩ := List.forall_mem_cons.mp sound
  have ascii : mark.scalar.toNat < 0x80 := by
    rw [Character.isNewline_iff.mp first]
    decide
  rw [Text.ofCharacters_cons] at later
  exact .newlines_append others remaining ((regroup (known.separate ascii _)).mpr later)

/-- A scan without an error is a scan of the first line and then one of what follows the newline,
when no token has a newline in it. -/
theorem Scans.cut_line {front back : List Character} {mark : Character}
    (scans : (language table).Scans (front ++ mark :: back) position line tokens final none)
    (ends : mark.isNewline) (inline : ∀ character ∈ front, character.isNewline = false)
    (sound : ∀ character ∈ front ++ mark :: back, character.Sound)
    (single : ∀ token ∈ tokens, Text.newline ∉ token.lexeme) :
    ∃ earlier later reached next, tokens = earlier ++ later ∧
      (language table).Scans front position line earlier reached none ∧
      (language table).Scans back (position.advance (Text.ofCharacters (front ++ [mark]))) next
        later final none := by
  generalize whole : front ++ mark :: back = characters at scans sound
  generalize succeeded : (none : Option ScanError) = outcome at scans
  induction scans generalizing front with
  | finished => simp at whole
  | illegal | failed => contradiction
  | @skipped characters taken rest rule position line next final tokens outcome split read scans
      ih =>
    obtain ⟨rfl, takes⟩ := split?_language_iff.mp split
    obtain ⟨within, others⟩ := List.forall_mem_append.mp sound
    subst succeeded
    obtain ⟨middle, rfl, rfl⟩ | ⟨run, rfl, rfl⟩ := append_eq_append_cons whole.symm
    · obtain ⟨_, remaining⟩ := List.forall_mem_append.mp inline
      obtain ⟨earlier, later, reached, next, rfl, first, second⟩ :=
        ih remaining single rfl others rfl
      have cut := @split?_of_takes table _ _ _ takes.truncate
      have moved := advance_before takes sound position
      exact ⟨earlier, later, reached, next, rfl, .skipped cut read first, moved ▸ second⟩
    · -- Only a run of newlines is skipped with a newline in it, so the line in front is empty.
      obtain ⟨suppressed, rfl⟩ := takes.of_read_skipped within read
      have all := takes.newlines_of_suppress suppressed (by simp) ends
      cases front with
      | cons first others =>
        have broken := all first (by simp)
        rw [inline first (by simp)] at broken
        contradiction
      | nil =>
        have second := Scans.uncons_newline all sound scans
        exact ⟨[], tokens, line, _, rfl, .finished position line, by simpa using second⟩
  | @token characters taken rest rule position line final made tokens outcome split read scans
      ih =>
    obtain ⟨rfl, takes⟩ := split?_language_iff.mp split
    obtain ⟨within, others⟩ := List.forall_mem_append.mp sound
    obtain ⟨unbroken, alike⟩ := List.forall_mem_cons.mp single
    subst succeeded
    obtain ⟨middle, rfl, rfl⟩ | ⟨run, rfl, rfl⟩ := append_eq_append_cons whole.symm
    · obtain ⟨_, remaining⟩ := List.forall_mem_append.mp inline
      obtain ⟨earlier, later, reached, next, rfl, first, second⟩ :=
        ih remaining alike rfl others rfl
      have cut := @split?_of_takes table _ _ _ takes.truncate
      have moved := advance_before takes sound position
      exact ⟨made :: earlier, later, reached, next, rfl, .token cut read first, moved ▸ second⟩
    · have spelled : Text.newline ∈ mark.bytes :=
        (within mark (by simp)).newline_mem_iff.mpr (of_decide_eq_true ends)
      refine absurd ?_ unbroken
      rw [(Piece.eq_of_read_token read).1]
      exact List.mem_flatMap.mpr ⟨mark, by simp, spelled⟩

/-- A carriage return that ends a line is the end of a comment, and the scan finds the same tokens
without it. -/
theorem Scans.without_return {front : List Character} {mark : Character}
    (scans : (language table).Scans (front ++ [mark]) position line tokens final none)
    (returns : mark.scalar.toNat = 13)
    (sound : ∀ character ∈ front ++ [mark], character.Sound) :
    ∃ last, (language table).Scans front position line tokens last none := by
  generalize whole : front ++ [mark] = characters at scans sound
  generalize succeeded : (none : Option ScanError) = outcome at scans
  induction scans generalizing front with
  | finished => simp at whole
  | illegal | failed => contradiction
  | @skipped characters taken rest rule position line next final tokens outcome split read scans
      ih =>
    obtain ⟨rfl, takes⟩ := split?_language_iff.mp split
    obtain ⟨within, others⟩ := List.forall_mem_append.mp sound
    subst succeeded
    obtain ⟨middle, rfl, rfl⟩ | ⟨run, rfl, none⟩ := append_eq_append_cons whole.symm
    · obtain ⟨last, shorter⟩ := ih rfl others rfl
      exact ⟨last, .skipped (split?_of_takes takes.truncate) read shorter⟩
    · obtain ⟨rfl, rfl⟩ := List.append_eq_nil_iff.mp none.symm
      obtain ⟨rfl, comment⟩ := takes.comment_of_return returns
      obtain ⟨rfl, _⟩ := scans.unique (.finished _ _)
      have split := @split?_of_takes table _ _ _ comment
      rw [List.append_nil] at split
      have known : ∀ character ∈ front, character.Sound := (List.forall_mem_append.mp within).1
      exact ⟨_, .skipped split (comment.read_of_suppress rfl known table line position)
        (.finished _ _)⟩
  | @token characters taken rest rule position line final made tokens outcome split read scans
      ih =>
    obtain ⟨rfl, takes⟩ := split?_language_iff.mp split
    obtain ⟨within, others⟩ := List.forall_mem_append.mp sound
    subst succeeded
    obtain ⟨middle, rfl, rfl⟩ | ⟨run, rfl, none⟩ := append_eq_append_cons whole.symm
    · obtain ⟨last, shorter⟩ := ih rfl others rfl
      exact ⟨last, .token (split?_of_takes takes.truncate) read shorter⟩
    · obtain ⟨rfl, rfl⟩ := List.append_eq_nil_iff.mp none.symm
      obtain ⟨rfl, _⟩ := takes.comment_of_return returns
      cases (takes.read_of_suppress rfl within table line position).symm.trans read

/-- The tokens of a line stand on it. -/
theorem Scans.line_eq {scanner : Scanner} {characters : List Character}
    (scans : scanner.Scans characters position line tokens final error)
    (inline : (Text.ofCharacters characters).newlines = 0) :
    ∀ token ∈ tokens, token.position.line = position.line := by
  induction scans with
  | finished | illegal | failed => simp
  | skipped split read later ih =>
    obtain ⟨rfl, _⟩ := Registry.split?_eq_some_iff.mp split
    rw [Text.ofCharacters_append, Text.newlines_append, Nat.add_eq_zero_iff] at inline
    simpa [inline.1] using ih inline.2
  | token split read later ih =>
    obtain ⟨rfl, _⟩ := Registry.split?_eq_some_iff.mp split
    rw [Text.ofCharacters_append, Text.newlines_append, Nat.add_eq_zero_iff] at inline
    refine List.forall_mem_cons.mpr ⟨?_, by simpa [inline.1] using ih inline.2⟩
    rw [(Piece.eq_of_read_token read).2.2]

/-- A text that is scanned without an error in the first column is scanned by itself as the same
tokens, apart from where they stand. -/
theorem Scans.scan_eq {scanner : Scanner} {text : Text}
    (scans : scanner.Scans text.characters position line tokens final none)
    (first : position.column = 1) :
    ∃ alone move, scanner.scan text = .ok alone ∧ tokens = alone.map (Token.shift move) := by
  have moved := (scanner.scans text).shift ⟨position.line - 1, position.offset, line - 1⟩
  have placed : Position.start.shift ⟨position.line - 1, position.offset, line - 1⟩ = position := by
    simp [Position.shift, Position.start, ← first]
  have counted : 1 + (line - 1) = line := by omega
  rw [placed, counted] at moved
  obtain ⟨same, _, succeeds⟩ := scans.unique moved
  refine ⟨_, _, scan_eq_ok_iff.mpr (Prod.ext rfl ?_), same⟩
  rw [scanUntilFailure_snd, Option.map_eq_none_iff.mp succeeds.symm]
  rfl

end Scanner

end Aml
