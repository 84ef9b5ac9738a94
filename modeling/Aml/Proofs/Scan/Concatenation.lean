import Mathlib
import Aml.Proofs.Scan.Language

/-!
# Scanning texts one after the other

A scan that starts further on in a source finds the same tokens, moved (`Scanner.Scans.shift`).
When a text is empty or ends a line, nothing that its scan of the language takes can go on into
what follows it: every match but the last is held by characters of the text itself, and the last
one is a run of newlines, which may be joined by those at the start of the next text
(`Scanner.Scans.append`). So scanning two such texts in a row is scanning each of them.
-/
namespace Aml

/-! ## Moving tokens -/

/-- How far what precedes a text moves its tokens. -/
structure Displacement where
  /-- The lines of the source. -/
  lines : Int
  /-- The bytes of the source. -/
  bytes : Int
  /-- The lines of the line counter. -/
  counter : Int

/-- The place in the same column, further on in the source. -/
def Position.shift (move : Displacement) (position : Position) : Position :=
  { position with line := position.line + move.lines, offset := position.offset + move.bytes }

/-- The same token, further on in the source. -/
def Token.shift (move : Displacement) (token : Token) : Token :=
  { token with line := token.line + move.counter, position := token.position.shift move }

/-- The same error, further on in the source. -/
def ScanError.shift (move : Displacement) : ScanError → ScanError
  | .illegalCharacter character line position =>
    .illegalCharacter character (line + move.counter) (position.shift move)
  | .malformedNumber lexeme kind line position cause =>
    .malformedNumber lexeme kind (line + move.counter) (position.shift move) cause
  | .conversion line rule lexeme cause => .conversion (line + move.counter) rule lexeme cause
  | .noRule line symbol => .noRule (line + move.counter) symbol
  | .unlocated line cause => .unlocated (line + move.counter) cause

/-- What the same piece becomes further on in the source. -/
def Reading.shift (move : Displacement) : Reading → Reading
  | .skipped line => .skipped (line + move.counter)
  | .token made => .token (made.shift move)
  | .failed error => .failed (error.shift move)

/-- Moving a place and reading a text from it can be done in either order. -/
theorem Position.shift_advance (move : Displacement) (position : Position) (text : Text) :
    (position.shift move).advance text = (position.advance text).shift move := by
  simp only [shift, advance, Position.mk.injEq]
  refine ⟨by ring, trivial, by ring⟩

/-- Reclassifying a token does not depend on its place. -/
theorem KeywordTable.resolve_shift (table : KeywordTable) (rule : Rule) (move : Displacement)
    (token : Token) :
    table.resolve rule (token.shift move) = (table.resolve rule token).shift move := by
  unfold resolve
  rw [show (token.shift move).lexeme = token.lexeme from rfl]
  split
  · split <;> rfl
  · rfl

/-- What a piece becomes does not depend on its place. -/
theorem Piece.read_shift (rule : Rule) (lexeme : Text) (position : Position)
    (table : KeywordTable) (line : Int) (move : Displacement) :
    read ⟨rule, lexeme, position.shift move⟩ table (line + move.counter) =
      (read ⟨rule, lexeme, position⟩ table line).shift move := by
  have moved (value : Option Value) :
      (⟨rule.kind, lexeme, value, line + move.counter, position.shift move⟩ : Token) =
        Token.shift move ⟨rule.kind, lexeme, value, line, position⟩ := rfl
  unfold read token
  simp only [moved, KeywordTable.resolve_shift]
  split
  · rfl
  · split
    · split
      · simp only [Reading.shift, Reading.skipped.injEq]
        ring
      · rfl
    · cases rule.converter with
      | none => rfl
      | some converter =>
        simp only
        cases converter.convert lexeme with
        | ok value => rfl
        | error cause =>
          simp only [failure, Reading.shift]
          split <;> rfl

namespace Scanner

variable {scanner : Scanner} {characters : List Character} {position : Position}
  {line final : Int} {tokens : List Token} {error : Option ScanError}

/-- A scan that starts further on finds the same tokens, moved, and the same error. -/
theorem Scans.shift (scans : scanner.Scans characters position line tokens final error)
    (move : Displacement) :
    scanner.Scans characters (position.shift move) (line + move.counter)
      (tokens.map (Token.shift move)) (final + move.counter)
      (error.map (ScanError.shift move)) := by
  induction scans with
  | finished position line => exact .finished _ _
  | illegal position line stuck => exact .illegal _ _ stuck
  | skipped split read later ih =>
    refine .skipped split ((Piece.read_shift ..).trans (congrArg (Reading.shift move) read)) ?_
    rwa [Position.shift_advance]
  | token split read later ih =>
    refine .token split ((Piece.read_shift ..).trans (congrArg (Reading.shift move) read)) ?_
    rwa [Position.shift_advance]
  | failed split read =>
    exact .failed split ((Piece.read_shift ..).trans (congrArg (Reading.shift move) read))

end Scanner

/-! ## The seam -/

namespace Lexis

variable {rule : Rule} {taken rest more : List Character}

/-- What stops a class goes on to stop it when more follows. -/
theorem Stops.append {holds : Character → Bool} (stops : Stops holds rest) (present : rest ≠ []) :
    Stops holds (rest ++ more) := by
  obtain ⟨first, others, rfl⟩ := List.exists_cons_of_ne_nil present
  exact stops_cons.mpr (stops_cons.mp stops)

/-- What starts no fraction starts none when more follows it, unless it ends in a point. -/
theorem fraction?_append_eq_none (pointless : fraction? rest = none)
    (ended : ∃ front last, rest = front ++ [last] ∧ last.scalar ≠ '.') :
    fraction? (rest ++ more) = none := by
  obtain ⟨front, last, rfl, plain⟩ := ended
  cases front with
  | nil => simp [fraction?, plain]
  | cons first others =>
    rw [List.cons_append, fraction?] at pointless
    rw [List.cons_append, List.cons_append, fraction?]
    split at pointless
    · rw [if_pos ‹_›]
      rw [Option.map_eq_none_iff, digits?, headed?_eq_none_iff] at pointless ⊢
      exact pointless.append (by simp)
    · rw [if_neg ‹_›]

/-- No operator has more than two characters. -/
theorem scalars_length_le (operator : Operator) : operator.scalars.length ≤ 2 := by
  cases operator <;> decide

/-- A match stays as it is when more follows what it leaves, unless this ends in a point. -/
theorem Takes.append (takes : Takes rule taken rest)
    (ended : ∃ front last, rest = front ++ [last] ∧ last.scalar ≠ '.') :
    Takes rule taken (rest ++ more) := by
  have left : rest ≠ [] := by
    obtain ⟨front, last, rfl, _⟩ := ended
    simp
  have present := takes.present
  cases takes with
  | string opens inner closes => exact .string opens inner closes
  | real signed digits pointed places stops =>
    exact .real signed digits pointed places (stops.append left)
  | integer signed digits stops pointless =>
    exact .integer signed digits (stops.append left) (fraction?_append_eq_none pointless ended)
  | name starts goesOn stops => exact .name starts goesOn (stops.append left)
  | comment marked inner stops => exact .comment marked inner (stops.append left)
  | newlines present all stops => exact .newlines present all (stops.append left)
  | blanks present all stops => exact .blanks present all (stops.append left)
  | operator spelled longest unsigned =>
    refine .operator spelled (fun other starts => longest other ?_)
      fun minus => (unsigned minus).append left
    -- Two characters decide about every operator, and they are there before more follows.
    rw [startsWith_iff] at starts ⊢
    refine List.prefix_of_prefix_length_le starts ?_ ?_
    · rw [← List.append_assoc]
      exact (List.prefix_append _ _).map Character.scalar
    · have := scalars_length_le other
      have := List.length_pos_of_ne_nil present
      have := List.length_pos_of_ne_nil left
      rw [List.length_map, List.length_append]
      omega

/-- A match that ends its text with a line is a run of newlines. -/
theorem Takes.newlines_of_closed (takes : Takes rule taken [])
    (closed : ∀ last ∈ (taken ++ []).getLast?, last.isNewline) :
    rule.suppress = true ∧ ∀ character ∈ taken, character.isNewline := by
  obtain ⟨front, last, rfl, _, ends⟩ := takes.ending
  exact ends (closed last (by simp))

/-- What is left of a text that ends a line ends it, and not in a point. -/
theorem closed_of_append (present : rest ≠ [])
    (closed : ∀ last ∈ (taken ++ rest).getLast?, last.isNewline) :
    (∀ last ∈ rest.getLast?, last.isNewline) ∧
      ∃ front last, rest = front ++ [last] ∧ last.scalar ≠ '.' := by
  rw [List.getLast?_append_of_ne_nil _ present] at closed
  refine ⟨closed, _, _, (List.dropLast_append_getLast present).symm, fun point => ?_⟩
  have ends := closed _ (List.getLast?_eq_some_getLast present)
  rw [Character.isNewline, point] at ends
  contradiction

end Lexis

namespace Scanner

open Lexis

variable {table : KeywordTable} {front back : List Character} {position : Position}
  {line final : Int} {tokens : List Token} {error : Option ScanError}

/-- Newlines in front are scanned over and counted. -/
theorem Scans.newlines_append (ends : ∀ character ∈ front, character.isNewline)
    (sound : ∀ character ∈ front ++ back, character.Sound)
    (later : (language table).Scans back (position.advance (Text.ofCharacters front))
      (line + (Text.ofCharacters front).newlines) tokens final error) :
    (language table).Scans (front ++ back) position line tokens final error := by
  induction front generalizing position line with
  | nil => simpa using later
  | cons character rest ih =>
    obtain ⟨first, others⟩ := List.forall_mem_cons.mp ends
    obtain ⟨single, remaining⟩ := List.forall_mem_cons.mp sound
    have ascii : character.scalar.toNat < 0x80 := by
      rw [Character.isNewline_iff.mp first]
      decide
    exact .cons_newline first sound
      (ih others remaining ((regroup (single.separate ascii _)).mpr later))

/-- A scan of a text that is empty or ends a line goes on with the scan of what follows it. -/
theorem Scans.append {reached : Int} {before : List Token}
    (scans : (language table).Scans front position line before reached none)
    (closed : ∀ last ∈ front.getLast?, last.isNewline)
    (sound : ∀ character ∈ front ++ back, character.Sound)
    (later : (language table).Scans back (position.advance (Text.ofCharacters front)) reached
      tokens final error) :
    (language table).Scans (front ++ back) position line (before ++ tokens) final error := by
  generalize succeeded : (none : Option ScanError) = outcome at scans
  induction scans with
  | finished position line => simpa using later
  | illegal | failed => contradiction
  | @skipped characters taken rest rule position line next reached before outcome split read scans
      ih =>
    obtain ⟨rfl, takes⟩ := split?_language_iff.mp split
    obtain ⟨within, others⟩ := List.forall_mem_append.mp (List.append_assoc .. ▸ sound)
    by_cases last : rest = []
    · subst last
      obtain ⟨suppressed, ends⟩ := takes.newlines_of_closed closed
      obtain ⟨rfl, rfl, _⟩ := scans.unique (.finished _ _)
      obtain rfl := Reading.skipped.inj
        ((takes.read_of_suppress suppressed within table line position).symm.trans read)
      rw [List.append_nil] at sound later ⊢
      exact newlines_append ends sound later
    · obtain ⟨goesOn, ended⟩ := closed_of_append last closed
      rw [List.append_assoc]
      refine .skipped (split?_of_takes (takes.append ended)) read (ih goesOn others ?_ succeeded)
      rwa [Position.advance_append _ (takes.separate (List.forall_mem_append.mp sound).1),
        ← Text.ofCharacters_append]
  | @token characters taken rest rule position line reached made before outcome split read scans
      ih =>
    obtain ⟨rfl, takes⟩ := split?_language_iff.mp split
    obtain ⟨within, others⟩ := List.forall_mem_append.mp (List.append_assoc .. ▸ sound)
    have last : rest ≠ [] := by
      rintro rfl
      obtain ⟨suppressed, _⟩ := takes.newlines_of_closed closed
      cases (takes.read_of_suppress suppressed within table line position).symm.trans read
    obtain ⟨goesOn, ended⟩ := closed_of_append last closed
    rw [List.append_assoc]
    refine .token (split?_of_takes (takes.append ended)) read (ih goesOn others ?_ succeeded)
    rwa [Position.advance_append _ (takes.separate (List.forall_mem_append.mp sound).1),
      ← Text.ofCharacters_append]

end Scanner

/-! ## Texts that end a line -/

/-- A text is empty or ends a line. -/
def Text.Closed (text : Text) : Prop :=
  text = [] ∨ text.getLast? = some Text.newline

/-- A text that is not empty and ends a line has a newline after the rest of it. -/
theorem Text.Closed.cases {text : Text} (closed : text.Closed) :
    text = [] ∨ ∃ front, text = front ++ [newline] := by
  obtain empty | ends := closed
  · exact .inl empty
  · obtain ⟨front, split⟩ := List.getLast?_eq_some_iff.mp ends
    exact .inr ⟨front, split⟩

/-- A text that is empty or ends a line is separate from what follows it. -/
theorem Text.Closed.separate {text : Text} (closed : text.Closed) (right : Text) :
    Separate text right := by
  refine .inl fun byte last => ?_
  obtain rfl | ends := closed
  · contradiction
  · rw [ends, Option.mem_some_iff] at last
    rw [← last]
    decide

/-- The last character of a text that ends a line is the newline. -/
theorem Text.Closed.isNewline {text : Text} (closed : text.Closed) :
    ∀ last ∈ text.characters.getLast?, last.isNewline := by
  obtain rfl | ⟨front, rfl⟩ := closed.cases
  · simp
  · have split : (front ++ [newline]).characters = front.characters ++ [Character.ofByte newline] :=
      characters_append (.inr (by simp [isContinuation, newline]))
    rw [split, List.getLast?_concat]
    rintro _ ⟨⟩
    rfl

/-- After a text that is empty or ends a line, the source goes on in the first column. -/
theorem Text.Closed.start_advance {text : Text} (closed : text.Closed) (counter : Int) :
    Position.start.advance text =
      Position.start.shift ⟨text.newlines, text.length, counter⟩ := by
  have column : (Position.start.advance text).column = 1 := by
    obtain rfl | ⟨front, rfl⟩ := closed.cases
    · simp [Position.start]
    · have ended : newlines [newline] ≠ 0 := by decide
      have last : (front ++ [newline]).lastLine = [] := by
        rw [lastLine_append_of_newline ended]
        rfl
      have several : (front ++ [newline]).newlines ≠ 0 := by
        rw [newlines_append]
        omega
      rw [Position.advance, if_neg several, last]
      rfl
  exact Position.mk.injEq .. ▸ ⟨rfl, column, rfl⟩

/-- How far a text moves what follows it: by its newlines, by its bytes, and by what its stream
has counted once it has given all tokens. -/
def Scanner.displacement (scanner : Scanner) (text : Text) (tokens : List Token) :
    Displacement where
  lines := text.newlines
  bytes := text.length
  counter := (Stream.ask (tokens.length + 1) (scanner.stream text)).2.line - 1

/-- Scanning is a homomorphism on texts that end a line: after a text that is empty or ends a
line and is scanned without an error, the scan of the language goes on with the tokens or the
error of what follows, moved past that text. -/
theorem Scanner.scan_append {table : Option KeywordTable} {scanner : Scanner}
    (built : Scanner.build table Rule.defaults = .ok scanner) {front : Text}
    {tokens : List Token} (closed : front.Closed) (scanned : scanner.scan front = .ok tokens)
    (back : Text) :
    scanner.scan (front ++ back) =
      match scanner.scan back with
      | .ok later => .ok (tokens ++ later.map (Token.shift (scanner.displacement front tokens)))
      | .error error => .error (error.shift (scanner.displacement front tokens)) := by
  obtain ⟨words, _, rfl⟩ := language_of_built built
  have done := scan_eq_ok_iff.mp scanned
  have first := language_scans words front
  rw [done] at first
  have counted : 1 + ((language words).displacement front tokens).counter =
      (language words).finalLine front := by
    rw [displacement, ((language words).ask_stream front (tokens.length + 1)).2 (by simp [done])]
    ring
  have moved : Position.start.shift ((language words).displacement front tokens) =
      Position.start.advance (Text.ofCharacters front.characters) := by
    rw [Text.ofCharacters_characters, closed.start_advance]
    rfl
  have second := (language_scans words back).shift ((language words).displacement front tokens)
  rw [counted, moved] at second
  have sound : ∀ character ∈ front.characters ++ back.characters, character.Sound :=
    List.forall_mem_append.mpr ⟨front.sound_of_mem_characters, back.sound_of_mem_characters⟩
  have whole := first.append closed.isNewline sound second
  rw [← Text.characters_append (closed.separate back)] at whole
  have outcome := whole.eq.1
  cases result : (language words).scan back with
  | ok later =>
    rw [scan_eq_ok_iff.mp result] at outcome
    exact scan_eq_ok_iff.mpr outcome
  | error error =>
    rw [scan_eq_error_iff.mp result] at outcome
    exact scan_eq_error_iff.mpr (congrArg Prod.snd outcome)

/-- A line with a name, before an empty line and an illegal character. -/
theorem Scanner.scan_append_illegal :
    Text.Closed ("a\n" : String) ∧
      (Scanner.language .empty).scan (Text.ofString "a\n" ++ Text.ofString "\n$") =
        .error (.illegalCharacter '$' 3 ⟨3, 1, 3⟩) := by
  have closed : Text.Closed ("a\n" : String) := .inr (by rfl)
  have scanned : (Scanner.language .empty).scan ("a\n" : String) =
      .ok [⟨.operand .identifier, [97], some (.string [97]), 1, ⟨1, 1, 0⟩⟩] := by rfl
  refine ⟨closed, ?_⟩
  rw [scan_append (build_defaults .empty) closed scanned]
  rfl

end Aml
