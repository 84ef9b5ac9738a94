import Mathlib
import Aml.Proofs.Scan.Language
import Aml.Proofs.Text.Place

/-!
# Cursors that a scan reaches

A scan moves a cursor through its source, one piece at a time. `Scanner.Moves` is one such move and
`Scanner.Reaches` any number of them, with the tokens made on the way. A scan is a walk to a cursor
where it ends (`Scanner.Scans.exists_reaches`), and each of its tokens is made at a cursor that the
tokens before it lead to (`Scanner.Scans.exists_reaches_token`). What one move does to the place and
to the characters left is said in `Scanner.Moves.segment`, and what a walk does follows from it
(`Scanner.Reaches.segment`): the cursor stands where its position says
(`Scanner.Reaches.drop_offset`), this position is counted from the start of the source in one go
(`Scanner.Reaches.counted`), and whatever a walk has read was read by one of its moves
(`Scanner.Reaches.exists_move`).
-/
namespace Aml.Scanner

/-- Where a scan stands in its source. -/
structure Cursor where
  /-- The characters still to be read. -/
  rest : List Character
  position : Position
  /-- The line counter. -/
  line : Int

/-- The cursor at the start of a source. -/
def Cursor.start (source : Text) : Cursor :=
  ⟨source.characters, .start, 1⟩

/-- The cursor after some characters, with the line counter at a line. -/
def Cursor.past (cursor : Cursor) (taken rest : List Character) (line : Int) : Cursor :=
  ⟨rest, cursor.position.advance (Text.ofCharacters taken), line⟩

/-- What becomes of the characters that a rule takes at a cursor. -/
def readAt (scanner : Scanner) (cursor : Cursor) (rule : Rule) (taken : List Character) : Reading :=
  Piece.read ⟨rule, Text.ofCharacters taken, cursor.position⟩ scanner.table cursor.line

variable {scanner : Scanner}

/-- A piece is read at a cursor: it is skipped or becomes a token. -/
inductive Moves (scanner : Scanner) : Cursor → List Token → Cursor → Prop where
  | skipped {cursor : Cursor} {rule : Rule} {taken rest : List Character} {next : Int}
      (split : scanner.registry.split? cursor.rest = some (rule, taken, rest))
      (read : scanner.readAt cursor rule taken = .skipped next) :
      Moves scanner cursor [] (cursor.past taken rest next)
  | token {cursor : Cursor} {rule : Rule} {taken rest : List Character} {token : Token}
      (split : scanner.registry.split? cursor.rest = some (rule, taken, rest))
      (read : scanner.readAt cursor rule taken = .token token) :
      Moves scanner cursor [token] (cursor.past taken rest cursor.line)

/-- A walk from one cursor to another, with the tokens made on the way. -/
inductive Reaches (scanner : Scanner) : Cursor → List Token → Cursor → Prop where
  | refl (cursor : Cursor) : Reaches scanner cursor [] cursor
  | step {first next last : Cursor} {made tokens : List Token}
      (moves : scanner.Moves first made next) (later : Reaches scanner next tokens last) :
      Reaches scanner first (made ++ tokens) last

/-- A scan comes to its end at a cursor: nothing is left, no rule takes what is left, or the
characters that a rule takes have no value. -/
inductive Ends (scanner : Scanner) : Cursor → Option ScanError → Prop where
  | finished (position : Position) (line : Int) : Ends scanner ⟨[], position, line⟩ none
  | illegal {character : Character} {rest : List Character} (position : Position) (line : Int)
      (stuck : scanner.registry.split? (character :: rest) = none) :
      Ends scanner ⟨character :: rest, position, line⟩
        (some (.illegalCharacter character.scalar line position))
  | failed {cursor : Cursor} {rule : Rule} {taken rest : List Character} {error : ScanError}
      (split : scanner.registry.split? cursor.rest = some (rule, taken, rest))
      (read : scanner.readAt cursor rule taken = .failed error) :
      Ends scanner cursor (some error)

section Walks

variable {characters : List Character} {position : Position} {line final : Int}
  {tokens : List Token} {error : Option ScanError}

/-- A scan is a walk to a cursor where it ends, with the line counter at its last line. -/
theorem Scans.exists_reaches
    (scans : scanner.Scans characters position line tokens final error) :
    ∃ cursor, scanner.Reaches ⟨characters, position, line⟩ tokens cursor ∧
      cursor.line = final ∧ scanner.Ends cursor error := by
  induction scans with
  | finished position line => exact ⟨_, .refl _, rfl, .finished position line⟩
  | illegal position line stuck => exact ⟨_, .refl _, rfl, .illegal position line stuck⟩
  | @skipped characters taken rest rule position line next _ _ _ split read _ ih =>
    obtain ⟨cursor, walk, counted, ends⟩ := ih
    have moves : scanner.Moves ⟨characters, position, line⟩ [] _ := .skipped split read
    exact ⟨cursor, .step moves walk, counted, ends⟩
  | @token characters taken rest rule position line _ token _ _ split read _ ih =>
    obtain ⟨cursor, walk, counted, ends⟩ := ih
    have moves : scanner.Moves ⟨characters, position, line⟩ [token] _ := .token split read
    exact ⟨cursor, .step moves walk, counted, ends⟩
  | @failed characters taken rest rule position line error split read =>
    have ends : scanner.Ends ⟨characters, position, line⟩ (some error) := .failed split read
    exact ⟨_, .refl _, rfl, ends⟩

/-- Every token of a scan is made at a cursor that the tokens before it lead to. -/
theorem Scans.exists_reaches_token {earlier later : List Token} {token : Token}
    (scans : scanner.Scans characters position line (earlier ++ token :: later) final error) :
    ∃ cursor rule taken rest, scanner.Reaches ⟨characters, position, line⟩ earlier cursor ∧
      scanner.registry.split? cursor.rest = some (rule, taken, rest) ∧
      scanner.readAt cursor rule taken = .token token := by
  generalize listed : earlier ++ token :: later = tokens at scans
  induction scans generalizing earlier with
  | finished | illegal | failed => simp at listed
  | @skipped characters taken rest rule position line next _ _ _ split read _ ih =>
    obtain ⟨cursor, found, front, left, walk, makes⟩ := ih listed
    have moves : scanner.Moves ⟨characters, position, line⟩ [] _ := .skipped split read
    exact ⟨cursor, found, front, left, .step moves walk, makes⟩
  | @token characters taken rest rule position line _ made _ _ split read _ ih =>
    cases earlier with
    | nil =>
      obtain ⟨rfl, _⟩ := List.cons.inj listed
      exact ⟨_, rule, taken, rest, .refl _, split, read⟩
    | cons first others =>
      obtain ⟨rfl, remaining⟩ := List.cons.inj listed
      obtain ⟨cursor, found, front, left, walk, makes⟩ := ih remaining
      have moves : scanner.Moves ⟨characters, position, line⟩ [first] _ := .token split read
      exact ⟨cursor, found, front, left, .step moves walk, makes⟩

/-- What a scan finds from a cursor on comes after what a walk has found on its way there. -/
theorem Scans.after {first last : Cursor} {earlier : List Token}
    (scans : scanner.Scans first.rest first.position first.line tokens final error)
    (walk : scanner.Reaches first earlier last) :
    ∃ later, tokens = earlier ++ later ∧
      scanner.Scans last.rest last.position last.line later final error := by
  induction walk generalizing tokens with
  | refl cursor => exact ⟨tokens, rfl, scans⟩
  | step moves _ ih =>
    cases moves with
    | skipped split read =>
      have next := scans.of_split split
      rw [readAt] at read
      rw [read] at next
      exact ih next
    | token split read =>
      have next := scans.of_split split
      rw [readAt] at read
      rw [read] at next
      obtain ⟨others, rfl, remaining⟩ := next
      obtain ⟨later, rfl, found⟩ := ih remaining
      exact ⟨later, rfl, found⟩

/-- What a scan finds from a cursor on, after what a walk has found on its way there, is what it
finds in one go. -/
theorem Reaches.scans {first last : Cursor} {earlier : List Token}
    (walk : scanner.Reaches first earlier last)
    (scans : scanner.Scans last.rest last.position last.line tokens final error) :
    scanner.Scans first.rest first.position first.line (earlier ++ tokens) final error := by
  induction walk with
  | refl cursor => exact scans
  | step moves _ ih =>
    cases moves with
    | skipped split read => exact .skipped split read (ih scans)
    | token split read => exact .token split read (ih scans)

end Walks

/-- A scan moves only where a rule takes characters. -/
theorem Moves.exists_split {cursor next : Cursor} {made : List Token}
    (moves : scanner.Moves cursor made next) :
    ∃ rule taken rest, scanner.registry.split? cursor.rest = some (rule, taken, rest) := by
  cases moves with
  | skipped split | token split => exact ⟨_, _, _, split⟩

/-- Where a rule takes characters, a scan moves past them or does not move. -/
theorem moves_iff_of_split {cursor next : Cursor} {made : List Token} {rule : Rule}
    {taken rest : List Character}
    (split : scanner.registry.split? cursor.rest = some (rule, taken, rest)) :
    scanner.Moves cursor made next ↔
      (∃ line, scanner.readAt cursor rule taken = .skipped line ∧ made = [] ∧
        next = cursor.past taken rest line) ∨
      ∃ token, scanner.readAt cursor rule taken = .token token ∧ made = [token] ∧
        next = cursor.past taken rest cursor.line := by
  have same {other : Rule} {front back : List Character}
      (found : scanner.registry.split? cursor.rest = some (other, front, back)) :
      other = rule ∧ front = taken ∧ back = rest := by
    simpa using found.symm.trans split
  constructor
  · intro moves
    cases moves with
    | skipped found read =>
      obtain ⟨rfl, rfl, rfl⟩ := same found
      exact .inl ⟨_, read, rfl, rfl⟩
    | token found read =>
      obtain ⟨rfl, rfl, rfl⟩ := same found
      exact .inr ⟨_, read, rfl, rfl⟩
  · rintro (⟨line, read, rfl, rfl⟩ | ⟨token, read, rfl, rfl⟩)
    · exact .skipped split read
    · exact .token split read

/-! ## Where the cursor stands -/

variable {first last : Cursor} {tokens : List Token} {source : Text}

/-- A move reads the first characters left and moves the position past them. -/
theorem Moves.segment {made : List Token} (moves : scanner.Moves first made last) :
    ∃ taken, first.rest = taken ++ last.rest ∧
      last.position = first.position.advance (Text.ofCharacters taken) := by
  cases moves with
  | skipped split | token split =>
    obtain ⟨whole, _, _⟩ := Registry.split?_eq_some_iff.mp split
    exact ⟨_, whole, rfl⟩

/-- A walk reads the first characters left, and its offset and its line count their bytes and their
newlines. -/
theorem Reaches.segment (walk : scanner.Reaches first tokens last) :
    ∃ taken, first.rest = taken ++ last.rest ∧
      last.position.offset = first.position.offset + (Text.ofCharacters taken).length ∧
      last.position.line = first.position.line + (Text.ofCharacters taken).newlines := by
  induction walk with
  | refl cursor => exact ⟨[], rfl, by simp, by simp⟩
  | step moves _ ih =>
    obtain ⟨taken, whole, moved⟩ := moves.segment
    obtain ⟨others, split, bytes, lines⟩ := ih
    refine ⟨taken ++ others, by rw [whole, split, List.append_assoc], ?_, ?_⟩
    · rw [bytes, moved, Position.advance_offset, Text.ofCharacters_append, List.length_append]
      push_cast
      ring
    · rw [lines, moved, Position.advance_line, Text.ofCharacters_append, Text.newlines_append]
      push_cast
      ring

/-- A walk from the start of a source stands after some of its characters, at the offset of their
bytes and on the line of their newlines. -/
theorem Reaches.before (walk : scanner.Reaches (.start source) tokens last) :
    ∃ before, source.characters = before ++ last.rest ∧
      last.position.offset = (Text.ofCharacters before).length ∧
      last.position.line = 1 + (Text.ofCharacters before).newlines := by
  obtain ⟨before, whole, bytes, lines⟩ := walk.segment
  have origin : (Cursor.start source).position.offset = 0 := rfl
  rw [origin, Int.zero_add] at bytes
  exact ⟨before, whole, bytes, lines⟩

/-- A walk goes on counting the position that has been counted up to its first cursor. -/
theorem Reaches.counted_after (walk : scanner.Reaches first tokens last) {before : List Character}
    (whole : source.characters = before ++ first.rest)
    (counted : first.position = Position.start.advance (Text.ofCharacters before)) :
    ∃ front, source.characters = front ++ last.rest ∧
      last.position = Position.start.advance (Text.ofCharacters front) := by
  induction walk generalizing before with
  | refl cursor => exact ⟨before, whole, counted⟩
  | step moves _ ih =>
    obtain ⟨taken, split, moved⟩ := moves.segment
    rw [split] at whole
    have meets := Text.meets_ofCharacters whole
    refine ih (by rw [whole, List.append_assoc]) ?_
    rw [moved, counted, Position.start.advance_append_of_meets meets, Text.ofCharacters_append]

/-- The position at a cursor is counted in one go up to the characters left. -/
theorem Reaches.counted (walk : scanner.Reaches (.start source) tokens last) :
    ∃ front, source.characters = front ++ last.rest ∧
      last.position = Position.start.advance (Text.ofCharacters front) :=
  walk.counted_after (List.nil_append _).symm (Position.advance_nil _).symm

/-- What is left at a cursor is what follows its offset in the source. -/
theorem Reaches.drop_offset (walk : scanner.Reaches (.start source) tokens last) :
    source.drop last.position.offset.toNat = Text.ofCharacters last.rest ∧
      Text.characters (source.drop last.position.offset.toNat) = last.rest := by
  obtain ⟨before, whole, bytes, _⟩ := walk.before
  have dropped : source.drop last.position.offset.toNat = Text.ofCharacters last.rest := by
    rw [bytes, Int.toNat_natCast]
    exact Text.drop_of_characters whole
  refine ⟨dropped, ?_⟩
  rw [dropped]
  exact Text.characters_ofCharacters_right whole

/-- Whatever a walk has read was read by one of its moves. -/
theorem Reaches.exists_move (walk : scanner.Reaches first tokens last) {front back : List Character}
    (whole : first.rest = front ++ back) (read : last.rest.length < back.length) :
    ∃ earlier cursor made next later inner, scanner.Reaches first earlier cursor ∧
      scanner.Moves cursor made next ∧ scanner.Reaches next later last ∧
      tokens = earlier ++ (made ++ later) ∧ cursor.rest = inner ++ back ∧
      next.rest.length < back.length := by
  -- The induction goes along the walk up to the first move that reads past the front.
  induction walk generalizing front with
  | refl cursor =>
    have sized := congrArg List.length whole
    rw [List.length_append] at sized
    omega
  | @step first next last made tokens moves later ih =>
    by_cases past : next.rest.length < back.length
    · exact ⟨[], first, made, next, tokens, front, .refl first, moves, later, rfl, whole, past⟩
    · obtain ⟨taken, split, _⟩ := moves.segment
      have suffix : back <:+ next.rest := List.suffix_of_suffix_length_le
        ⟨front, whole.symm⟩ ⟨taken, split.symm⟩ (by omega)
      obtain ⟨middle, left⟩ := suffix
      obtain ⟨earlier, cursor, other, beyond, further, inner, walk, found⟩ := ih left.symm read
      refine ⟨made ++ earlier, cursor, other, beyond, further, inner, .step moves walk, ?_⟩
      rw [List.append_assoc, List.append_right_inj]
      exact found

/-- The characters left at a cursor are sound. -/
theorem Reaches.sound (walk : scanner.Reaches (.start source) tokens last) :
    ∀ character ∈ last.rest, character.Sound := by
  obtain ⟨before, whole, _, _⟩ := walk.before
  have all := source.sound_of_mem_characters
  rw [whole] at all
  exact (List.forall_mem_append.mp all).2

end Aml.Scanner
