import Mathlib
import Aml.Proofs.Scan.Interleaving
import Aml.Proofs.Scan.Lossless
import Aml.Proofs.Scan.Reach

/-!
# The logical line

A scan counts lines twice. Its position counts every newline that it passes, and its line counter
only those that it skips. With the rules of the language nothing but a string can hold a newline
that is not skipped, so in one move the two counts come apart by the newlines of the string that the
move makes, if it makes one (`Scanner.Moves.lag`), and over a walk by those of all its strings
(`Scanner.Reaches.lag`). Hence the line of a token or an error is determined by the text before it,
and the last line by the newlines of the source that stand outside strings.
-/
namespace Aml

/-! ## Newlines in strings and outside of them -/

/-- The newlines inside the strings among tokens. -/
def stringNewlines (tokens : List Token) : Nat :=
  (tokens.map fun token => if token.kind = .operand .string then token.lexeme.newlines else 0).sum

/-- The newlines of the first token, if that is a string, count with the others. -/
theorem stringNewlines_cons (token : Token) (tokens : List Token) :
    stringNewlines (token :: tokens) =
      (if token.kind = .operand .string then token.lexeme.newlines else 0) +
        stringNewlines tokens := rfl

/-- The newlines of strings add up. -/
theorem stringNewlines_append (earlier later : List Token) :
    stringNewlines (earlier ++ later) = stringNewlines earlier + stringNewlines later := by
  rw [stringNewlines, List.map_append, List.sum_append]
  rfl

/-- Whether an offset lies inside a string among tokens. -/
def inString (tokens : List Token) (offset : Nat) : Bool :=
  tokens.any fun token =>
    token.kind = .operand .string && token.position.offset ≤ offset && offset < token.stop

/-- An offset inside a string lies between the ends of a string token. -/
theorem inString_iff {tokens : List Token} {offset : Nat} :
    inString tokens offset ↔ ∃ token ∈ tokens, token.kind = .operand .string ∧
      token.position.offset ≤ offset ∧ offset < token.stop := by
  simp [inString, and_assoc]

/-- An offset lies inside the first token, if that is a string, or inside a later one. -/
theorem inString_cons (token : Token) (tokens : List Token) (offset : Nat) :
    inString (token :: tokens) offset =
      (decide (token.kind = .operand .string) && decide (token.position.offset ≤ offset) &&
        decide ((offset : Int) < token.stop) || inString tokens offset) := rfl

/-- Before the first token there is no string. -/
theorem inString_eq_false {tokens : List Token} {offset : Nat}
    (later : ∀ token ∈ tokens, offset < token.position.offset) :
    inString tokens offset = false := by
  apply List.any_eq_false.mpr
  intro token member
  have apart : ¬token.position.offset ≤ offset := by
    have := later token member
    omega
  simp [apart]

/-- The newlines of a text that stand outside the strings among tokens, its first byte being at an
offset. -/
def Text.newlinesOutside (tokens : List Token) (offset : Nat) (text : Text) : Nat :=
  (text.zipIdx offset).countP fun pair => decide (pair.1 = newline) && !inString tokens pair.2

/-- A text that lies outside all strings, or inside one of them, has all of its newlines outside, or
none. -/
theorem Text.newlinesOutside_of_inString {tokens : List Token} {offset : Nat} {text : Text}
    {inside : Bool}
    (uniform : ∀ place, offset ≤ place → place < offset + text.length →
      inString tokens place = inside) :
    text.newlinesOutside tokens offset = if inside then 0 else text.newlines := by
  have same : text.newlinesOutside tokens offset =
      (text.zipIdx offset).countP fun pair => decide (pair.1 = newline) && !inside := by
    unfold newlinesOutside
    apply List.countP_congr
    intro pair member
    have bounds := List.mem_zipIdx member
    rw [uniform pair.2 bounds.1 bounds.2.1]
  have firsts : (text.zipIdx offset).countP (fun pair => decide (pair.1 = newline) && !inside) =
      text.countP fun byte => decide (byte = newline) && !inside := by
    conv_rhs => rw [← List.zipIdx_map_fst offset text, List.countP_map]
    rfl
  rw [same, firsts]
  cases inside with
  | true => simp
  | false =>
    simp only [Bool.not_false, Bool.and_true, Bool.false_eq_true, if_false]
    exact List.countP_congr fun byte _ => by simp

/-- The newlines outside strings of two texts in a row add up. -/
theorem Text.newlinesOutside_append (tokens : List Token) (offset : Nat) (left right : Text) :
    (left ++ right).newlinesOutside tokens offset =
      left.newlinesOutside tokens offset +
        right.newlinesOutside tokens (offset + left.length) := by
  rw [newlinesOutside, List.zipIdx_append, List.countP_append]
  rfl

/-- All newlines before the first token are outside strings. -/
theorem Text.newlinesOutside_before {tokens : List Token} {offset : Nat} {gap : Text}
    (later : ∀ token ∈ tokens, offset + gap.length ≤ token.position.offset) :
    gap.newlinesOutside tokens offset = gap.newlines := by
  have outside : ∀ place, offset ≤ place → place < offset + gap.length →
      inString tokens place = false := by
    intro place _ within
    apply inString_eq_false
    intro token member
    have := later token member
    omega
  rw [newlinesOutside_of_inString outside, if_neg Bool.false_ne_true]

/-- The newlines of the first token are inside a string, if it is one, and outside if not. -/
theorem Token.newlinesOutside_lexeme {token : Token} {tokens : List Token} {offset : Nat}
    (placed : token.position.offset = offset)
    (later : ∀ other ∈ tokens, token.stop ≤ other.position.offset) :
    token.lexeme.newlinesOutside (token :: tokens) offset =
      if token.kind = .operand .string then 0 else token.lexeme.newlines := by
  have uniform : ∀ place, offset ≤ place → place < offset + token.lexeme.length →
      inString (token :: tokens) place = decide (token.kind = .operand .string) := by
    intro place least most
    have started : token.position.offset ≤ place := by omega
    have within : (place : Int) < token.stop := by
      unfold Token.stop
      omega
    have others : inString tokens place = false := by
      apply inString_eq_false
      intro other member
      have := later other member
      omega
    simp [inString_cons, started, within, others]
  rw [Text.newlinesOutside_of_inString uniform]
  simp only [decide_eq_true_eq]

/-- After the first token only the others matter. -/
theorem Text.newlinesOutside_after {token : Token} {tokens : List Token} {offset : Nat}
    (past : token.stop ≤ offset) (text : Text) :
    text.newlinesOutside (token :: tokens) offset = text.newlinesOutside tokens offset := by
  unfold newlinesOutside
  apply List.countP_congr
  intro pair member
  have least : offset ≤ pair.2 := (List.mem_zipIdx member).1
  have apart : ¬(pair.2 : Int) < token.stop := by omega
  simp [inString_cons, apart]

namespace Covers

variable {isGap : Text → Prop} {text : Text} {tokens : List Token}

/-- No token starts before the offset of the text. -/
theorem le_offset {offset : Int} (covers : Covers isGap text offset tokens) :
    ∀ token ∈ tokens, offset ≤ token.position.offset := by
  induction covers with
  | last => simp
  | @token gap rest offset token tokens fills present placed later ih =>
    refine List.forall_mem_cons.mpr ⟨?_, ?_⟩
    · omega
    · intro other member
      have after := ih other member
      unfold Token.stop at after
      omega

/-- Every newline of a text stands outside its strings or inside one of them. -/
theorem newlinesOutside_add {offset : Nat} (covers : Covers isGap text offset tokens) :
    text.newlinesOutside tokens offset + stringNewlines tokens = text.newlines := by
  generalize start : (offset : Int) = origin at covers
  induction covers generalizing offset with
  | last =>
    rw [Text.newlinesOutside_before (by simp)]
    rfl
  | @token gap rest origin token tokens fills present placed later ih =>
    have begins : token.position.offset = (offset + gap.length : Nat) := by
      push_cast
      omega
    have ends : ((offset + gap.length + token.lexeme.length : Nat) : Int) = token.stop := by
      rw [Token.stop, begins]
      push_cast
      rfl
    have others := ih ends
    have before : ∀ other ∈ token :: tokens, offset + gap.length ≤ other.position.offset := by
      refine List.forall_mem_cons.mpr ⟨by omega, fun other member => ?_⟩
      have := later.le_offset other member
      omega
    rw [Text.newlinesOutside_append, Text.newlinesOutside_append,
      Text.newlinesOutside_before before, Token.newlinesOutside_lexeme begins later.le_offset,
      Text.newlinesOutside_after ends.ge, stringNewlines_cons, Text.newlines_append,
      Text.newlines_append]
    split <;> omega

end Covers

/-! ## The two counts along a walk -/

/-- A rule of the language that makes tokens takes graphic characters of ASCII alone, unless it
reads strings. -/
theorem Lexis.Takes.graphic {rule : Rule} {taken rest : List Character}
    (takes : Takes rule taken rest) (kept : rule.suppress = false)
    (other : rule ≠ Rule.stringLiteral) :
    ∀ character ∈ taken, 32 < character.scalar.toNat ∧ character.scalar.toNat < 127 := by
  have of_digits {digits : List Character} (numeric : IsDigits digits) :
      ∀ character ∈ digits, 32 < character.scalar.toNat ∧ character.scalar.toNat < 127 := by
    intro character member
    have := Character.isDigit_iff.mp (numeric.2 character member)
    omega
  have of_sign {sign : List Character} (signed : IsSign sign) :
      ∀ character ∈ sign, 32 < character.scalar.toNat ∧ character.scalar.toNat < 127 := by
    obtain rfl | ⟨minus, negative, rfl⟩ := signed
    · simp
    · simp [negative]
  cases takes with
  | comment | newlines | blanks => contradiction
  | string => exact absurd rfl other
  | real signed digits pointed places =>
    refine List.forall_mem_append.mpr ⟨of_sign signed, List.forall_mem_append.mpr
      ⟨of_digits digits, List.forall_mem_cons.mpr ⟨?_, of_digits places⟩⟩⟩
    rw [pointed]
    decide
  | integer signed digits =>
    exact List.forall_mem_append.mpr ⟨of_sign signed, of_digits digits⟩
  | name starts goesOn =>
    refine List.forall_mem_cons.mpr ⟨?_, fun character member => ?_⟩
    · have := Character.isLetter_iff.mp starts
      omega
    · have := Character.isNamePart_iff.mp (goesOn character member)
      omega
  | @operator operator _ _ spelled =>
    have graphic : ∀ scalar ∈ operator.scalars, 32 < scalar.toNat ∧ scalar.toNat < 127 := by
      cases operator <;> simp [Operator.scalars, Operator.spelling]
    intro character member
    exact graphic _ (spelled ▸ List.mem_map_of_mem member)

/-- A rule of the language that makes tokens takes no newline, unless it reads strings. -/
theorem Lexis.Takes.newlines_eq_zero {rule : Rule} {taken rest : List Character}
    (takes : Takes rule taken rest) (kept : rule.suppress = false)
    (other : rule ≠ Rule.stringLiteral) (sound : ∀ character ∈ taken, character.Sound) :
    (Text.ofCharacters taken).newlines = 0 := by
  apply Text.newlines_eq_zero sound
  intro character member
  have := takes.graphic kept other character member
  rw [Bool.eq_false_iff, Ne, Character.isNewline_iff]
  omega

/-- The newlines that a token of the language takes are those of a string. -/
theorem Lexis.Takes.stringNewlines {rule : Rule} {taken rest : List Character}
    (takes : Takes rule taken rest) (sound : ∀ character ∈ taken, character.Sound)
    {table : KeywordTable} {line : Int} {position : Position} {token : Token}
    (made : Piece.read ⟨rule, Text.ofCharacters taken, position⟩ table line = .token token) :
    Aml.stringNewlines [token] = (Text.ofCharacters taken).newlines := by
  have spelled : token.lexeme = Text.ofCharacters taken := (Piece.eq_of_read_token made).1
  have kept : rule.suppress = false := by
    rw [Bool.eq_false_iff]
    intro suppressed
    cases made.symm.trans (takes.read_of_suppress suppressed sound table line position)
  rw [Aml.stringNewlines, List.map_singleton, List.sum_singleton, spelled]
  by_cases string : rule = Rule.stringLiteral
  · have kind : token.kind = .operand .string := by
      rw [string, Piece.read_stringLiteral] at made
      split at made
      · rw [← Reading.token.inj made]
      · contradiction
    rw [if_pos kind]
  · rw [takes.newlines_eq_zero kept string sound, ite_self]

namespace Scanner

open Lexis

variable {table : KeywordTable} {first last : Cursor} {tokens : List Token}

/-- How far the line counter is behind the line of the position. -/
def Cursor.lag (cursor : Cursor) : Int :=
  cursor.position.line - cursor.line

/-- A move makes the line counter fall behind by the newlines of the string that it makes, if it
makes one: both count what is skipped, and no other token has newlines. -/
theorem Moves.lag {made : List Token} (moves : (language table).Moves first made last)
    (sound : ∀ character ∈ first.rest, character.Sound) :
    last.lag = first.lag + stringNewlines made := by
  cases moves with
  | @skipped rule taken rest next split read =>
    obtain ⟨whole, takes⟩ := split?_language_iff.mp split
    rw [whole] at sound
    have counted : next = first.line + (Text.ofCharacters taken).newlines := by
      obtain ⟨_, skipped⟩ | ⟨_, _, _, made⟩ | ⟨_, _, _, failed⟩ :=
        takes.read (List.forall_mem_append.mp sound).1 table first.line first.position
      · exact Reading.skipped.inj (read.symm.trans skipped)
      · cases read.symm.trans made
      · cases read.symm.trans failed
    simp only [Cursor.lag, Cursor.past, Position.advance_line, counted, stringNewlines,
      List.map_nil, List.sum_nil]
    omega
  | @token rule taken rest made split read =>
    obtain ⟨whole, takes⟩ := split?_language_iff.mp split
    rw [whole] at sound
    have strings : stringNewlines [made] = (Text.ofCharacters taken).newlines :=
      takes.stringNewlines (List.forall_mem_append.mp sound).1 read
    simp only [Cursor.lag, Cursor.past, Position.advance_line, strings]
    omega

/-- A walk makes the line counter fall behind by the newlines of the strings that it makes. -/
theorem Reaches.lag (walk : (language table).Reaches first tokens last)
    (sound : ∀ character ∈ first.rest, character.Sound) :
    last.lag = first.lag + stringNewlines tokens := by
  induction walk with
  | refl => simp [stringNewlines]
  | step moves _ ih =>
    obtain ⟨taken, whole, _⟩ := moves.segment
    have one := moves.lag sound
    rw [whole] at sound
    have others := ih (List.forall_mem_append.mp sound).2
    rw [others, one, stringNewlines_append]
    push_cast
    ring

/-- At a cursor that a scan of a source reaches, the line counter is the line of the position less
the newlines of the strings made so far. -/
theorem Reaches.line_eq {source : Text}
    (walk : (language table).Reaches (.start source) tokens last) :
    last.line = last.position.line - stringNewlines tokens := by
  have behind := walk.lag source.sound_of_mem_characters
  have origin : (Cursor.start source).lag = 0 := rfl
  unfold Cursor.lag at behind origin
  omega

/-- The line of a token is that of its place less the newlines of the strings before it. -/
theorem Scans.line_eq_sub {source : Text} {earlier later : List Token} {token : Token}
    {final : Int} {error : Option ScanError}
    (scans : (language table).Scans source.characters .start 1 (earlier ++ token :: later) final
      error) :
    token.line = token.position.line - stringNewlines earlier := by
  obtain ⟨cursor, rule, taken, rest, walk, _, read⟩ := scans.exists_reaches_token
  obtain ⟨_, line, place⟩ := Piece.eq_of_read_token read
  have counted := walk.line_eq
  simp only at line place
  rw [line, place, counted]

end Scanner

/-! ## Lines of answers -/

/-- The logical line of an error. -/
def ScanError.line : ScanError → Int
  | .illegalCharacter _ line _ => line
  | .malformedNumber _ _ line _ _ => line
  | .conversion line _ _ _ => line
  | .noRule line _ => line
  | .unlocated line _ => line

/-- The logical line of an answer, if it has one. -/
def Answer.line? : Answer → Option Int
  | .token made => some made.line
  | .finished => none
  | .failed error => some error.line

/-- A failed piece fails on the line of the counter. -/
theorem Piece.line_of_read_failed {piece : Piece} {table : KeywordTable} {line : Int}
    {error : ScanError} (read : piece.read table line = .failed error) : error.line = line := by
  obtain ⟨_, _, _, _, rfl⟩ := Piece.eq_of_read_failed read
  unfold Piece.failure
  split <;> rfl

/-- A fault of the engine is met on the line of the counter. -/
theorem EngineFault.error_line (fault : EngineFault) (source : Text) (line : Int) :
    (fault.error source line).line = line := by
  unfold error
  split
  · rfl
  · split
    · rfl
    · split <;> rfl

/-- What the engine matches is read on the line of the counter. -/
theorem Scanner.line_of_read {scanner : Scanner} {piece : Piece} {line : Int} :
    (∀ token, scanner.read piece line = .token token → token.line = line) ∧
      ∀ error, scanner.read piece line = .failed error → error.line = line := by
  unfold Scanner.read
  dsimp only
  split
  · refine ⟨fun _ => nofun, fun error failed => ?_⟩
    obtain rfl := Reading.failed.inj failed
    rfl
  · exact ⟨fun token read => (Piece.eq_of_read_token read).2.1,
      fun error read => Piece.line_of_read_failed read⟩

namespace Stream

/-- A stream that has failed stays on the line of its error. -/
def Halted (stream : Stream) : Prop :=
  ∀ error, stream.phase = .failed error → error.line = stream.line

/-- Reading pieces ends on the line of the answer. -/
theorem line_advance (scanner : Scanner) (source : Text) (ending : Ending) (line : Int)
    (pieces : List Piece) :
    (∀ reached ∈ (advance scanner source ending line pieces).1.line?,
        reached = (advance scanner source ending line pieces).2.line) ∧
      (advance scanner source ending line pieces).2.Halted := by
  induction pieces generalizing line with
  | nil =>
    cases ending with
    | finished => simp [advance, endPhase, Phase.answer, Answer.line?, Halted]
    | stopped fault =>
      simp [advance, endPhase, Phase.answer, Answer.line?, fault.error_line, Halted]
  | cons piece rest ih =>
    rw [advance]
    cases read : scanner.read piece line with
    | skipped next => exact ih next
    | token token =>
      have same : token.line = line := Scanner.line_of_read.1 token read
      exact ⟨by simp [Answer.line?, same], by simp [Halted]⟩
    | failed error =>
      have same : error.line = line := Scanner.line_of_read.2 error read
      exact ⟨by simp [Answer.line?, same], by simp [Halted, same]⟩

/-- An answer has the line on which it leaves the counter, and a stream that has failed stays on the
line of its error. -/
theorem line_next {stream : Stream} (halted : stream.Halted) :
    (∀ reached ∈ stream.next.1.line?, reached = stream.next.2.line) ∧ stream.next.2.Halted := by
  unfold next
  split
  · exact line_advance ..
  · refine ⟨?_, halted⟩
    intro reached found
    cases phase : stream.phase with
    | scanning | finished =>
      rw [phase] at found
      contradiction
    | failed error =>
      rw [phase] at found
      rw [← halted error phase]
      exact (Option.some.inj found).symm

/-- The lines of answers never decrease, and none comes before the line of the counter. -/
theorem pairwise_lines {stream : Stream} (halted : stream.Halted) (calls : Nat) :
    (stream.line :: (ask calls stream).1.filterMap Answer.line?).Pairwise (· ≤ ·) := by
  induction calls generalizing stream with
  | zero => simp [ask]
  | succ calls ih =>
    obtain ⟨answered, still⟩ := line_next halted
    have later := ih still
    have grows := stream.line_le_next
    rw [ask]
    cases found : stream.next.1.line? with
    | none =>
      rw [List.filterMap_cons_none found]
      obtain ⟨above, ordered⟩ := List.pairwise_cons.mp later
      exact List.pairwise_cons.mpr ⟨fun line member => grows.trans (above line member), ordered⟩
    | some reached =>
      rw [List.filterMap_cons_some found, answered reached found]
      refine List.pairwise_cons.mpr ⟨?_, later⟩
      refine List.forall_mem_cons.mpr ⟨grows, fun line member => ?_⟩
      exact grows.trans ((List.pairwise_cons.mp later).1 line member)

end Stream

namespace Scanner

/-- An error of the language has the line and the place of the cursor where the scan ends. -/
theorem Ends.error_eq {table : KeywordTable} {cursor : Cursor} {error : ScanError}
    (ends : (language table).Ends cursor (some error))
    (sound : ∀ character ∈ cursor.rest, character.Sound) :
    error.line = cursor.line ∧ error.position? = some cursor.position := by
  cases ends with
  | illegal position line stuck => exact ⟨rfl, rfl⟩
  | @failed _ rule taken rest _ split read =>
    obtain ⟨whole, takes⟩ := Lexis.split?_language_iff.mp split
    rw [whole] at sound
    obtain ⟨_, skipped⟩ | ⟨_, _, _, made⟩ | ⟨_, _, _, failed⟩ :=
      takes.read (List.forall_mem_append.mp sound).1 table cursor.line cursor.position
    · cases read.symm.trans skipped
    · cases read.symm.trans made
    · rw [Reading.failed.inj (read.symm.trans failed)]
      exact ⟨rfl, rfl⟩

section Finished

variable {table : KeywordTable} {source : Text} {tokens : List Token}
  (done : (language table).scanUntilFailure source = (tokens, none))

include done

/-- The tokens of a scan that succeeds cover the source. -/
theorem covers_of_finished : Covers IsGap source (0 : Nat) tokens := by
  have scans := language_scans table source
  rw [done] at scans
  obtain ⟨covered, rest, split, covers, ends, _⟩ :=
    scans.covers_language source.sound_of_mem_characters
  rw [ends rfl, List.append_nil] at split
  rw [← split, Text.ofCharacters_characters] at covers
  exact covers

/-- A scan that succeeds counts every newline of the source, in its lines or in its strings. -/
theorem finalLine_add :
    (language table).finalLine source + stringNewlines tokens = 1 + source.newlines := by
  have scans := language_scans table source
  rw [done] at scans
  obtain ⟨cursor, walk, reached, ends⟩ := scans.exists_reaches
  obtain ⟨before, whole, _, lines⟩ := walk.before
  have counted : cursor.line = cursor.position.line - stringNewlines tokens := walk.line_eq
  have exhausted : cursor.rest = [] := by
    cases ends with
    | finished => rfl
  rw [exhausted, List.append_nil] at whole
  rw [← whole, Text.ofCharacters_characters] at lines
  omega

end Finished

/-- The logical line is determined by the text. With the rules of the language, the line of every
token and of every error is the line of its place less the newlines inside the strings before it, so
it is never beyond that line; lines never decrease along a stream; and after a scan that succeeds
the line counter is 1 plus the newlines of the source outside strings. -/
theorem line_determined {table : KeywordTable} {scanner : Scanner}
    (built : Scanner.build (some table) Rule.defaults = .ok scanner) (source : Text) :
    (∀ (calls : Nat) (earlier : List Token) (token : Token) (later : List Token),
      Stream.produced calls (scanner.stream source) = earlier ++ token :: later →
        token.line = token.position.line - stringNewlines earlier ∧
        token.line ≤ token.position.line) ∧
    (∀ (calls : Nat) (error : ScanError),
      .failed error ∈ (Stream.ask calls (scanner.stream source)).1 →
      ∃ position : Position, error.position? = some position ∧
        error.line =
          position.line - stringNewlines (Stream.produced calls (scanner.stream source)) ∧
        error.line ≤ position.line) ∧
    (∀ calls,
      ((Stream.ask calls (scanner.stream source)).1.filterMap Answer.line?).Pairwise (· ≤ ·)) ∧
    ∀ tokens, scanner.scan source = .ok tokens → ∀ calls, tokens.length < calls →
      (Stream.ask calls (scanner.stream source)).2.line =
        1 + source.newlinesOutside tokens 0 := by
  obtain ⟨words, _, rfl⟩ := language_of_built built
  have scans := language_scans words source
  refine ⟨?_, ?_, ?_, ?_⟩
  · intro calls earlier token later produced
    rw [produced_stream] at produced
    have listed := List.take_append_drop calls ((language words).scanUntilFailure source).1
    rw [produced, List.append_assoc, List.cons_append] at listed
    rw [← listed] at scans
    have counted := scans.line_eq_sub
    refine ⟨counted, ?_⟩
    omega
  · intro calls error answered
    obtain ⟨past, met⟩ := failed_mem_ask_stream answered
    obtain ⟨cursor, walk, _, ends⟩ := scans.exists_reaches
    rw [← (language_continues words).lastError?_eq, met] at ends
    obtain ⟨line, place⟩ := ends.error_eq walk.sound
    have counted := walk.line_eq
    rw [produced_stream, List.take_of_length_le past.le]
    refine ⟨cursor.position, place, ?_⟩
    omega
  · intro calls
    have fresh : ((language words).stream source).Halted := by
      simp [Stream.Halted, stream]
    exact (List.pairwise_cons.mp (Stream.pairwise_lines fresh calls)).2
  · intro tokens scanned calls past
    have done := scan_eq_ok_iff.mp scanned
    have final := ((language words).ask_stream source calls).2
    rw [done] at final
    have counted := finalLine_add done
    have outside := (covers_of_finished done).newlinesOutside_add
    rw [final past]
    omega

/-- After a string over two lines, and a newline, an illegal character is on the second logical
line. -/
theorem line_determined_string :
    .failed (.illegalCharacter '$' 2 ⟨3, 1, 6⟩) ∈
        (Stream.ask 2 ((language .empty).stream ("\"a\nb\"\n$" : String))).1 ∧
      ∃ position : Position,
        (ScanError.illegalCharacter '$' 2 ⟨3, 1, 6⟩).position? = some position ∧
        (ScanError.illegalCharacter '$' 2 ⟨3, 1, 6⟩).line = position.line -
          stringNewlines
            (Stream.produced 2 ((language .empty).stream ("\"a\nb\"\n$" : String))) ∧
        (ScanError.illegalCharacter '$' 2 ⟨3, 1, 6⟩).line ≤ position.line := by
  have answered : .failed (.illegalCharacter '$' 2 ⟨3, 1, 6⟩) ∈
      (Stream.ask 2 ((language .empty).stream ("\"a\nb\"\n$" : String))).1 := by
    decide
  exact ⟨answered, (line_determined (build_defaults .empty) _).2.1 2 _ answered⟩

end Scanner

end Aml
