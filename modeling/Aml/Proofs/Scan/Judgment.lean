import Mathlib
import Aml.Proofs.Scan.Engine

/-!
# Scanning as a judgment

A scan cuts a source into pieces and then reads the pieces one after the other, until it has ended
or nobody asks any more. The judgment `Scanner.Scans` says the same in one pass: at each cursor the
chosen rule takes its characters, and what it takes is skipped, becomes a token or fails. Every
scan has such a derivation (`Scanner.scans`) and no second one (`Scanner.Scans.unique`), so a law of
scans is an induction over derivations, and to compute a scan it is enough to derive it. What one
piece becomes is said once, by the cases of `Piece.Becomes`.

Asking a stream for tokens one by one gives those tokens in order and then the same last answer
forever (`Stream.ask_eq`). The two loops that collect tokens get as far (`Stream.collect_eq`,
`Stream.collectUntilFailure_eq`): they give the same tokens, and the error of the last answer
unless it stands for the end of the input (`Scanner.scanUntilFailure_eq`). Where no converter
refuses a lexeme for the end of the input, they give the error of the stream
(`Scanner.Continues.lastError?_eq`).
-/
namespace Aml

/-! ## Reading pieces -/

/-- The error of a stream that has failed. -/
def Phase.error? : Phase → Option ScanError
  | .failed error => some error
  | _ => none

/-- The answer with which a stream ends. -/
def Answer.last : Option ScanError → Answer
  | some error => .failed error
  | none => .finished

/-- A stream that has ended answers with its error, if it has one. -/
theorem Phase.answer_eq (phase : Phase) : Stream.Phase.answer phase = Answer.last phase.error? := by
  cases phase <;> rfl

/-- Resolving keeps the text, the line and the place of a token. -/
theorem KeywordTable.resolve_keeps (table : KeywordTable) (rule : Rule) (token : Token) :
    (table.resolve rule token).lexeme = token.lexeme ∧
      (table.resolve rule token).line = token.line ∧
      (table.resolve rule token).position = token.position := by
  unfold resolve
  split
  · split <;> exact ⟨rfl, rfl, rfl⟩
  · exact ⟨rfl, rfl, rfl⟩

namespace Piece

section Conversion

variable {rule : Rule} {converter : Converter} {table : KeywordTable} {lexeme : Text} {line : Int}
  {position : Position} (loud : rule.isSilent = false) (kept : rule.suppress = false)
  (converts : rule.converter = some converter)

include loud kept converts

/-- A rule with a converter makes a token with the value of its match, if it has one. -/
theorem read_of_convert_ok {value : Option Value}
    (converted : converter.convert lexeme = .ok value) :
    read ⟨rule, lexeme, position⟩ table line =
      .token (table.resolve rule ⟨rule.kind, lexeme, value, line, position⟩) := by
  have made : token ⟨rule, lexeme, position⟩ table line =
      .ok (table.resolve rule ⟨rule.kind, lexeme, value, line, position⟩) := by
    simp only [token, converts, converted]
  simp only [read, loud, kept, made, Bool.false_eq_true, if_false]

/-- A rule with a converter fails when this refuses its match. -/
theorem read_of_convert_error {cause : LiteralError}
    (refused : converter.convert lexeme = .error cause) :
    read ⟨rule, lexeme, position⟩ table line =
      .failed (failure ⟨rule, lexeme, position⟩ line cause) := by
  have failed : token ⟨rule, lexeme, position⟩ table line =
      .error (failure ⟨rule, lexeme, position⟩ line cause) := by
    simp only [token, converts, refused]
  simp only [read, loud, kept, failed, Bool.false_eq_true, if_false]

end Conversion

/-- What a piece becomes. A piece of a silent rule is skipped, and so is one of a suppressed rule,
whose newlines may count. Any other becomes a token with its text and its place, or fails with the
cause that its converter gives. -/
inductive Becomes (piece : Piece) (table : KeywordTable) (line : Int) : Reading → Prop where
  | silent (silent : piece.rule.isSilent = true) : Becomes piece table line (.skipped line)
  | suppressed (loud : piece.rule.isSilent = false) (suppressed : piece.rule.suppress = true) :
      Becomes piece table line
        (.skipped (if piece.rule.countLines then line + piece.lexeme.newlines else line))
  | plain (loud : piece.rule.isSilent = false) (kept : piece.rule.suppress = false)
      (bare : piece.rule.converter = none) :
      Becomes piece table line (.token
        (table.resolve piece.rule ⟨piece.rule.kind, piece.lexeme, none, line, piece.position⟩))
  | converted {converter : Converter} {value : Option Value}
      (loud : piece.rule.isSilent = false) (kept : piece.rule.suppress = false)
      (converts : piece.rule.converter = some converter)
      (converted : converter.convert piece.lexeme = .ok value) :
      Becomes piece table line (.token
        (table.resolve piece.rule ⟨piece.rule.kind, piece.lexeme, value, line, piece.position⟩))
  | refused {converter : Converter} {cause : LiteralError}
      (loud : piece.rule.isSilent = false) (kept : piece.rule.suppress = false)
      (converts : piece.rule.converter = some converter)
      (refused : converter.convert piece.lexeme = .error cause) :
      Becomes piece table line (.failed (piece.failure line cause))

/-- Reading a piece gives what it becomes. -/
theorem becomes_of_read {piece : Piece} {table : KeywordTable} {line : Int} {reading : Reading}
    (given : piece.read table line = reading) : piece.Becomes table line reading := by
  subst given
  by_cases silent : piece.rule.isSilent = true
  · rw [read, if_pos silent]
    exact .silent silent
  have loud := Bool.eq_false_iff.mpr silent
  by_cases suppressed : piece.rule.suppress = true
  · rw [read, if_neg silent, if_pos suppressed]
    exact .suppressed loud suppressed
  have kept := Bool.eq_false_iff.mpr suppressed
  cases converts : piece.rule.converter with
  | none =>
    have made : piece.token table line = .ok
        (table.resolve piece.rule ⟨piece.rule.kind, piece.lexeme, none, line, piece.position⟩) := by
      simp only [token, converts]
    rw [read, if_neg silent, if_neg suppressed, made]
    exact .plain loud kept converts
  | some converter =>
    cases converted : converter.convert piece.lexeme with
    | ok value =>
      rw [read_of_convert_ok loud kept converts converted]
      exact .converted loud kept converts converted
    | error cause =>
      rw [read_of_convert_error loud kept converts converted]
      exact .refused loud kept converts converted

/-- A token keeps the text and the place of its piece and takes the line of the counter. -/
theorem eq_of_read_token {table : KeywordTable} {line : Int} {piece : Piece} {token : Token}
    (read : piece.read table line = .token token) :
    token.lexeme = piece.lexeme ∧ token.line = line ∧ token.position = piece.position := by
  cases becomes_of_read read with
  | plain | converted => exact table.resolve_keeps ..

/-- A piece fails when its converter refuses its text, with the cause that this gives. -/
theorem eq_of_read_failed {table : KeywordTable} {line : Int} {piece : Piece} {error : ScanError}
    (read : piece.read table line = .failed error) :
    ∃ converter cause, piece.rule.converter = some converter ∧
      converter.convert piece.lexeme = .error cause ∧ error = piece.failure line cause := by
  cases becomes_of_read read with
  | refused loud kept converts refused => exact ⟨_, _, converts, refused, rfl⟩

/-- The error of a refused lexeme stands for the end of the input when its cause does. -/
theorem failure_endsInput (piece : Piece) (line : Int) (cause : LiteralError) :
    (piece.failure line cause).endsInput = cause.endsInput := by
  unfold failure
  split <;> rfl

end Piece

namespace Stream

section Reading

variable (scanner : Scanner) (source : Text) (ending : Ending)

/-- The tokens of pieces, and the stream that is left when it has ended. -/
def readAll : (line : Int) → List Piece → List Token × Stream
  | line, [] => ([], ⟨scanner, source, [], ending, line, endPhase source ending line⟩)
  | line, piece :: rest =>
    match scanner.read piece line with
    | .skipped line => readAll line rest
    | .token token => (token :: (readAll line rest).1, (readAll line rest).2)
    | .failed error => ([], ⟨scanner, source, rest, ending, line, .failed error⟩)

/-- Each token takes a piece. -/
theorem length_readAll_le (line : Int) (pieces : List Piece) :
    (readAll scanner source ending line pieces).1.length ≤ pieces.length := by
  induction pieces generalizing line with
  | nil => exact Nat.le_refl 0
  | cons piece rest ih =>
    rw [readAll]
    cases scanner.read piece line with
    | skipped line => exact Nat.le_succ_of_le (ih line)
    | token token => exact Nat.succ_le_succ (ih line)
    | failed error => exact Nat.zero_le _

/-- Asking for the next token reads pieces up to the first token, or to the end. -/
theorem advance_eq (line : Int) (pieces : List Piece) :
    (∃ last, readAll scanner source ending line pieces = ([], last) ∧ last.phase ≠ .scanning ∧
      advance scanner source ending line pieces = (Phase.answer last.phase, last)) ∨
    ∃ token tokens last reached rest,
      readAll scanner source ending line pieces = (token :: tokens, last) ∧
      readAll scanner source ending reached rest = (tokens, last) ∧
      advance scanner source ending line pieces =
        (.token token, ⟨scanner, source, rest, ending, reached, .scanning⟩) := by
  induction pieces generalizing line with
  | nil =>
    refine .inl ⟨_, rfl, ?_, rfl⟩
    cases ending <;> simp [endPhase]
  | cons piece rest ih =>
    rw [readAll, advance]
    cases scanner.read piece line with
    | skipped line => exact ih line
    | token token => exact .inr ⟨token, _, _, line, rest, rfl, rfl, rfl⟩
    | failed error => exact .inl ⟨_, rfl, by simp, rfl⟩

end Reading

/-- The tokens that a stream still gives, and the stream that is left when it has ended. -/
def remainder (stream : Stream) : List Token × Stream :=
  readAll stream.scanner stream.source stream.ending stream.line stream.pieces

/-- A stream that has not ended answers with the first of its remaining tokens, or ends. -/
theorem next_cases {stream : Stream} (scanning : stream.phase = .scanning) :
    (∃ last, stream.remainder = ([], last) ∧ last.phase ≠ .scanning ∧
      stream.next = (Phase.answer last.phase, last)) ∨
    ∃ token tokens last later, stream.remainder = (token :: tokens, last) ∧
      later.remainder = (tokens, last) ∧ later.phase = .scanning ∧
      stream.next = (.token token, later) := by
  have step : stream.next = advance stream.scanner stream.source stream.ending stream.line
      stream.pieces := by rw [next, scanning]
  obtain ⟨last, read, ended, advanced⟩ |
    ⟨token, tokens, last, reached, rest, read, remaining, advanced⟩ :=
    advance_eq stream.scanner stream.source stream.ending stream.line stream.pieces
  · exact .inl ⟨last, read, ended, step.trans advanced⟩
  · let later : Stream :=
      ⟨stream.scanner, stream.source, rest, stream.ending, reached, .scanning⟩
    exact .inr ⟨token, tokens, last, later, read, remaining, rfl, step.trans advanced⟩

/-! ## Asking -/

/-- Asks a stream for tokens a number of times. -/
def ask : (calls : Nat) → Stream → List Answer × Stream
  | 0, stream => ([], stream)
  | calls + 1, stream =>
    (stream.next.1 :: (ask calls stream.next.2).1, (ask calls stream.next.2).2)

/-- A stream that has ended gives its last answer and stays as it is. -/
theorem ask_of_ended {stream : Stream} (ended : stream.phase ≠ .scanning) (calls : Nat) :
    ask calls stream = (List.replicate calls (Phase.answer stream.phase), stream) := by
  have still : stream.next = (Phase.answer stream.phase, stream) := by
    unfold next
    split
    · contradiction
    · rfl
  induction calls with
  | zero => rfl
  | succ calls ih => rw [ask, still, ih, List.replicate_succ]

/-- A stream gives its tokens in order and then its last answer; past the last token it stays as it
has ended. -/
theorem ask_eq {stream last : Stream} {tokens : List Token} (scanning : stream.phase = .scanning)
    (all : stream.remainder = (tokens, last)) (calls : Nat) :
    (ask calls stream).1 = (tokens.take calls).map .token ++
        List.replicate (calls - tokens.length) (Phase.answer last.phase) ∧
      (tokens.length < calls → (ask calls stream).2 = last) := by
  induction calls generalizing stream tokens with
  | zero => simp [ask]
  | succ calls ih =>
    rw [ask]
    obtain ⟨left, read, ended, next⟩ | ⟨token, later, left, rest, read, remaining, active, next⟩ :=
      next_cases scanning
    · obtain ⟨rfl, rfl⟩ : [] = tokens ∧ left = last := by simpa using read.symm.trans all
      rw [next, ask_of_ended ended]
      simp [List.replicate_succ]
    · obtain ⟨rfl, rfl⟩ : token :: later = tokens ∧ left = last := by
        simpa using read.symm.trans all
      obtain ⟨answers, final⟩ := ih active remaining
      rw [next, answers]
      refine ⟨by simp, fun past => final ?_⟩
      rw [List.length_cons] at past
      omega

/-- Asked often enough, a stream is asked up to its end: the loop adds its tokens to those before,
and gives the error in which it ends unless this stands for the end of the input. -/
theorem collectUntilFailure_eq {stream last : Stream} {tokens : List Token}
    (scanning : stream.phase = .scanning) (all : stream.remainder = (tokens, last)) {asks : Nat}
    (enough : tokens.length < asks) (before : List Token) :
    collectUntilFailure asks stream before =
      (before.reverse ++ tokens, last.phase.error?.filter fun error => !error.endsInput) := by
  induction asks generalizing stream tokens before with
  | zero => contradiction
  | succ asks ih =>
    rw [collectUntilFailure]
    obtain ⟨left, read, ended, next⟩ | ⟨token, later, left, rest, read, remaining, active, next⟩ :=
      next_cases scanning
    · obtain ⟨rfl, rfl⟩ : [] = tokens ∧ left = last := by simpa using read.symm.trans all
      rw [next, List.append_nil]
      cases ends : left.phase with
      | scanning => exact absurd ends ended
      | finished => rfl
      | failed error =>
        cases stands : error.endsInput <;>
          simp [Phase.answer, Phase.error?, Option.filter, stands]
    · obtain ⟨rfl, rfl⟩ : token :: later = tokens ∧ left = last := by
        simpa using read.symm.trans all
      rw [next]
      refine (ih active remaining (Nat.lt_of_succ_lt_succ enough) (token :: before)).trans ?_
      rw [List.reverse_cons, List.append_assoc, List.singleton_append]

/-- The loop that gives all tokens or the error gives what the other loop does. -/
theorem collect_eq (asks : Nat) (stream : Stream) (before : List Token) :
    collect asks stream before =
      match collectUntilFailure asks stream before with
      | (tokens, none) => .ok tokens
      | (_, some error) => .error error := by
  induction asks generalizing stream before with
  | zero => rfl
  | succ asks ih =>
    rw [collect, collectUntilFailure]
    split
    · exact ih _ _
    · rfl
    · rename_i error _ _
      cases error.endsInput <;> rfl

end Stream

/-! ## Scanning in one pass -/

/-- A converter refuses no lexeme for the end of the input. -/
def Converter.Continues (converter : Converter) : Prop :=
  ∀ lexeme cause, converter.convert lexeme = .error cause → cause.endsInput = false

namespace Scanner

variable {scanner : Scanner}

/-- The scan of characters from a cursor on, with the line counter at a line: the tokens, the
line counter at the end and the error, if the scan fails. -/
inductive Scans (scanner : Scanner) : List Character → Position → (line : Int) → List Token →
    (final : Int) → Option ScanError → Prop where
  | finished (position : Position) (line : Int) : Scans scanner [] position line [] line none
  | illegal {character : Character} {rest : List Character} (position : Position) (line : Int)
      (stuck : scanner.registry.split? (character :: rest) = none) :
      Scans scanner (character :: rest) position line [] line
        (some (.illegalCharacter character.scalar line position))
  | skipped {characters taken rest : List Character} {rule : Rule} {position : Position}
      {line next final : Int} {tokens : List Token} {error : Option ScanError}
      (split : scanner.registry.split? characters = some (rule, taken, rest))
      (read : Piece.read ⟨rule, Text.ofCharacters taken, position⟩ scanner.table line =
        .skipped next)
      (later : Scans scanner rest (position.advance (Text.ofCharacters taken)) next tokens final
        error) :
      Scans scanner characters position line tokens final error
  | token {characters taken rest : List Character} {rule : Rule} {position : Position}
      {line final : Int} {token : Token} {tokens : List Token} {error : Option ScanError}
      (split : scanner.registry.split? characters = some (rule, taken, rest))
      (read : Piece.read ⟨rule, Text.ofCharacters taken, position⟩ scanner.table line =
        .token token)
      (later : Scans scanner rest (position.advance (Text.ofCharacters taken)) line tokens final
        error) :
      Scans scanner characters position line (token :: tokens) final error
  | failed {characters taken rest : List Character} {rule : Rule} {position : Position}
      {line : Int} {error : ScanError}
      (split : scanner.registry.split? characters = some (rule, taken, rest))
      (read : Piece.read ⟨rule, Text.ofCharacters taken, position⟩ scanner.table line =
        .failed error) :
      Scans scanner characters position line [] line (some error)

end Scanner

namespace Scanner

variable {scanner : Scanner}

/-- Cutting and then reading all pieces is a scan. -/
theorem scans_of_cuts {source : Text} {front characters : List Character} {position : Position}
    {pieces : List Piece} {ending : Ending}
    (cuts : scanner.registry.Cuts characters position pieces ending)
    (whole : source.characters = front ++ characters)
    (reached : position.offset = (Text.ofCharacters front).length) (line : Int) :
    scanner.Scans characters position line
      (Stream.readAll scanner source ending line pieces).1
      (Stream.readAll scanner source ending line pieces).2.line
      (Stream.readAll scanner source ending line pieces).2.phase.error? := by
  induction cuts generalizing front line with
  | finished position => exact .finished position line
  | illegal position stuck =>
    rw [Stream.readAll]
    change scanner.Scans _ position line [] line
      (some (EngineFault.error { position? := some position } source line))
    rw [EngineFault.error_eq whole reached]
    exact .illegal position line stuck
  | @piece characters taken rest rule position pieces ending split later ih =>
    obtain ⟨rfl, _, _⟩ := Registry.split?_eq_some_iff.mp split
    have behind : source.characters = (front ++ taken) ++ rest := by rw [whole, List.append_assoc]
    have moved : (position.advance (Text.ofCharacters taken)).offset =
        (Text.ofCharacters (front ++ taken)).length := by
      rw [Position.advance_offset, reached, Text.ofCharacters_append, List.length_append]
      push_cast
      rfl
    rw [Stream.readAll, read_eq (Registry.mem_of_split? split)]
    cases read : Piece.read ⟨rule, Text.ofCharacters taken, position⟩ scanner.table line with
    | skipped next => exact .skipped split read (ih behind moved next)
    | token token => exact .token split read (ih behind moved line)
    | failed error => exact .failed split read

/-- What a scan does with the characters that a rule takes first. -/
theorem Scans.of_split {characters taken rest : List Character} {position : Position} {line : Int}
    {tokens : List Token} {final : Int} {error : Option ScanError} {rule : Rule}
    (scans : scanner.Scans characters position line tokens final error)
    (split : scanner.registry.split? characters = some (rule, taken, rest)) :
    match Piece.read ⟨rule, Text.ofCharacters taken, position⟩ scanner.table line with
    | .skipped next =>
      scanner.Scans rest (position.advance (Text.ofCharacters taken)) next tokens final error
    | .token made => ∃ later, tokens = made :: later ∧
      scanner.Scans rest (position.advance (Text.ofCharacters taken)) line later final error
    | .failed fault => tokens = [] ∧ final = line ∧ error = some fault := by
  have same {other : Rule} {front back : List Character}
      (found : scanner.registry.split? characters = some (other, front, back)) :
      other = rule ∧ front = taken ∧ back = rest := by
    simpa using found.symm.trans split
  cases scans with
  | finished => simp at split
  | illegal _ _ stuck =>
    rw [stuck] at split
    contradiction
  | skipped found read later =>
    obtain ⟨rfl, rfl, rfl⟩ := same found
    rw [read]
    exact later
  | token found read later =>
    obtain ⟨rfl, rfl, rfl⟩ := same found
    rw [read]
    exact ⟨_, rfl, later⟩
  | failed found read =>
    obtain ⟨rfl, rfl, rfl⟩ := same found
    rw [read]
    exact ⟨rfl, rfl, rfl⟩

/-- A scan has only one outcome. -/
theorem Scans.unique {characters : List Character} {position : Position} {line : Int}
    {tokens others : List Token} {final last : Int} {error fault : Option ScanError}
    (one : scanner.Scans characters position line tokens final error)
    (other : scanner.Scans characters position line others last fault) :
    tokens = others ∧ final = last ∧ error = fault := by
  induction one generalizing others last fault with
  | finished position line =>
    cases other with
    | finished => exact ⟨rfl, rfl, rfl⟩
    | skipped split | token split | failed split => simp at split
  | illegal position line stuck =>
    cases other with
    | illegal => exact ⟨rfl, rfl, rfl⟩
    | skipped split | token split | failed split =>
      rw [stuck] at split
      contradiction
  | skipped split read later ih =>
    have same := other.of_split split
    rw [read] at same
    exact ih same
  | token split read later ih =>
    have same := other.of_split split
    rw [read] at same
    obtain ⟨_, rfl, remaining⟩ := same
    obtain ⟨rfl, rfl, rfl⟩ := ih remaining
    exact ⟨rfl, rfl, rfl⟩
  | failed split read =>
    have same := other.of_split split
    rw [read] at same
    obtain ⟨rfl, rfl, rfl⟩ := same
    exact ⟨rfl, rfl, rfl⟩

/-- What the stream of a source gives: its tokens, and the stream that is left at its end. -/
def history (scanner : Scanner) (source : Text) : List Token × Stream :=
  (scanner.stream source).remainder

/-- The line counter of a scanner at the end of a source, or at the error where its scan
fails. -/
def finalLine (scanner : Scanner) (source : Text) : Int :=
  (scanner.history source).2.line

/-- The error with which the stream of a source ends, if it fails. -/
def lastError? (scanner : Scanner) (source : Text) : Option ScanError :=
  (scanner.history source).2.phase.error?

/-- The tokens before the end of a scan are those of the stream, and the error is that of the
stream unless it stands for the end of the input. -/
theorem scanUntilFailure_eq (scanner : Scanner) (source : Text) :
    scanner.scanUntilFailure source = ((scanner.history source).1,
      (scanner.lastError? source).filter fun error => !error.endsInput) := by
  have enough : (scanner.history source).1.length < (scanner.stream source).patience :=
    Nat.lt_succ_of_le (Stream.length_readAll_le ..)
  exact Stream.collectUntilFailure_eq rfl rfl enough []

/-- Every scan of a source has a derivation. -/
theorem scans (scanner : Scanner) (source : Text) :
    scanner.Scans source.characters .start 1 (scanner.scanUntilFailure source).1
      (scanner.finalLine source) (scanner.lastError? source) := by
  rw [scanUntilFailure_eq]
  exact scans_of_cuts (scanner.registry.cuts source) (List.nil_append _).symm rfl 1

/-- A derivation tells the outcome of a scan. -/
theorem Scans.outcome {source : Text} {tokens : List Token} {final : Int}
    {error : Option ScanError}
    (derived : scanner.Scans source.characters .start 1 tokens final error) :
    (scanner.scanUntilFailure source).1 = tokens ∧ scanner.finalLine source = final ∧
      scanner.lastError? source = error :=
  (scanner.scans source).unique derived

/-- Those who collect tokens get the error of the stream, unless it stands for the end of the
input. -/
theorem scanUntilFailure_snd (scanner : Scanner) (source : Text) :
    (scanner.scanUntilFailure source).2 =
      (scanner.lastError? source).filter fun error => !error.endsInput := by
  rw [scanUntilFailure_eq]

/-- An error that those who collect tokens get is the one with which the stream ends. -/
theorem lastError?_of_scanUntilFailure {source : Text} {error : ScanError}
    (failed : (scanner.scanUntilFailure source).2 = some error) :
    scanner.lastError? source = some error := by
  rw [scanUntilFailure_snd, Option.filter_eq_some_iff] at failed
  exact failed.1

/-- A scan gives the tokens of a stream that ends without an error. -/
theorem scan_eq (scanner : Scanner) (source : Text) :
    scanner.scan source =
      match scanner.scanUntilFailure source with
      | (tokens, none) => .ok tokens
      | (_, some error) => .error error :=
  Stream.collect_eq ..

/-- A scan that succeeds gives the tokens found and meets no error. -/
theorem scan_eq_ok_iff {source : Text} {tokens : List Token} :
    scanner.scan source = .ok tokens ↔ scanner.scanUntilFailure source = (tokens, none) := by
  rw [scan_eq]
  split <;> simp_all

/-- A scan that fails gives the error met. -/
theorem scan_eq_error_iff {source : Text} {error : ScanError} :
    scanner.scan source = .error error ↔ (scanner.scanUntilFailure source).2 = some error := by
  rw [scan_eq]
  split <;> simp_all

/-- Asked past its last token, a stream is left at its end. -/
theorem ask_past (scanner : Scanner) (source : Text) {calls : Nat}
    (past : (scanner.scanUntilFailure source).1.length < calls) :
    (Stream.ask calls (scanner.stream source)).2 = (scanner.history source).2 := by
  rw [scanUntilFailure_eq] at past
  exact (@Stream.ask_eq (scanner.stream source) _ _ rfl rfl calls).2 past

/-- A stream gives the tokens of the scan in order and then its last answer; past the last token
its line counter is the final one. -/
theorem ask_stream (scanner : Scanner) (source : Text) (calls : Nat) :
    (Stream.ask calls (scanner.stream source)).1 =
        ((scanner.scanUntilFailure source).1.take calls).map .token ++
          List.replicate (calls - (scanner.scanUntilFailure source).1.length)
            (Answer.last (scanner.lastError? source)) ∧
      ((scanner.scanUntilFailure source).1.length < calls →
        (Stream.ask calls (scanner.stream source)).2.line = scanner.finalLine source) := by
  refine ⟨?_, fun past => congrArg Stream.line (scanner.ask_past source past)⟩
  rw [scanUntilFailure_eq, lastError?, ← Phase.answer_eq]
  exact (@Stream.ask_eq (scanner.stream source) _ _ rfl rfl calls).1

/-! ## Errors of a scan -/

/-- A scan fails at a character that no rule takes, or because a converter of its rules refuses a
lexeme. -/
theorem Scans.error_cases {characters : List Character} {position : Position} {line final : Int}
    {tokens : List Token} {error : Option ScanError}
    (scans : scanner.Scans characters position line tokens final error) :
    ∀ fault ∈ error,
      (∃ character reached place, fault = .illegalCharacter character reached place) ∨
        ∃ (piece : Piece) (reached : Int) (converter : Converter) (cause : LiteralError),
          (∃ checked ∈ scanner.registry.rules, checked.rule = piece.rule) ∧
          piece.rule.converter = some converter ∧
          converter.convert piece.lexeme = .error cause ∧ fault = piece.failure reached cause := by
  induction scans with
  | finished => simp
  | illegal position line stuck =>
    rintro _ ⟨⟩
    exact .inl ⟨_, _, _, rfl⟩
  | skipped split read later ih => exact ih
  | token split read later ih => exact ih
  | @failed characters taken rest rule position line error split read =>
    rintro _ ⟨⟩
    obtain ⟨converter, cause, converts, refused, same⟩ := Piece.eq_of_read_failed read
    exact .inr ⟨_, line, converter, cause, Registry.mem_of_split? split, converts, refused, same⟩

/-- No stream fails for want of a rule or of a place: each symbol of the engine stands for a rule,
and each of its faults tells a place of the source. -/
theorem lastError?_located (scanner : Scanner) (source : Text) :
    ∀ error ∈ scanner.lastError? source,
      (∀ line symbol, error ≠ .noRule line symbol) ∧
        ∀ line message, error ≠ .unlocated line message := by
  intro error failed
  obtain ⟨_, _, _, rfl⟩ | ⟨piece, line, _, cause, _, _, _, rfl⟩ :=
    (scanner.scans source).error_cases error failed
  · exact ⟨fun _ _ => nofun, fun _ _ => nofun⟩
  · unfold Piece.failure
    split <;> exact ⟨fun _ _ => nofun, fun _ _ => nofun⟩

/-- No converter of the rules refuses a lexeme for the end of the input. -/
def Continues (scanner : Scanner) : Prop :=
  ∀ checked ∈ scanner.registry.rules, ∀ converter ∈ checked.rule.converter, converter.Continues

/-- Where no lexeme is refused for the end of the input, those who collect tokens get the error of
the stream. -/
theorem Continues.lastError?_eq (continues : scanner.Continues) (source : Text) :
    scanner.lastError? source = (scanner.scanUntilFailure source).2 := by
  rw [scanUntilFailure_snd]
  cases failed : scanner.lastError? source with
  | none => rfl
  | some error =>
    have goes : error.endsInput = false := by
      obtain ⟨_, _, _, rfl⟩ | ⟨piece, line, converter, cause, ⟨checked, listed, same⟩, converts,
        refused, rfl⟩ := (scanner.scans source).error_cases error failed
      · rfl
      · rw [piece.failure_endsInput]
        exact continues checked listed converter (by rw [same, converts]; rfl) _ _ refused
    simp only [Option.filter, goes, Bool.not_false, if_true]

end Scanner

end Aml
