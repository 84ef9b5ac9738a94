import Mathlib
import Aml.Proofs.Scan.Interleaving
import Aml.Proofs.Scan.Lossless

/-!
# What calls make of the matches

A match of a rule becomes a token when the rule is neither suppressed nor silent, that is, its name
does not start with a lower-case letter, and when its literal is not refused. The line counter
advances only over a match of a rule that asks for it, is suppressed and is not silent.
`Piece.read_emits` says so of one match. A call consumes matches up to a token, or to the end, in
just this way (`Stream.next_consumes`), and so does any number of calls (`Stream.ask_consumes`).
When a stream has ended, all its matches are consumed, or those up to the first whose literal is
refused (`Stream.endsIn_readAll`).
-/
namespace Aml

/-- Whether the matches of a rule become tokens. -/
def Rule.emits (rule : Rule) : Bool :=
  !rule.suppress && !rule.isSilent

/-- A token with the text and the place of a match. -/
structure Piece.Yields (piece : Piece) (token : Token) : Prop where
  lexeme : token.lexeme = piece.lexeme
  position : token.position = piece.position

/-- Whether the newlines of the matches of a rule advance the line counter. -/
def Rule.counts (rule : Rule) : Bool :=
  rule.countLines && rule.suppress && !rule.isSilent

/-- The newlines of the matches of some rules. -/
def Piece.newlinesOf (selects : Rule → Bool) (pieces : List Piece) : Nat :=
  ((pieces.filter fun piece => selects piece.rule).map fun piece => piece.lexeme.newlines).sum

/-- Whether a match becomes a token: its rule emits, and its literal has a value if it needs one. -/
def Piece.makesToken (piece : Piece) : Bool :=
  piece.rule.emits &&
    piece.rule.converter.all fun converter => (converter.convert piece.lexeme).isOk

/-- A match is refused for a cause when its rule emits and the converter refuses its text. -/
def Piece.RefusedFor (piece : Piece) (cause : LiteralError) : Prop :=
  piece.rule.emits = true ∧ ∃ converter ∈ piece.rule.converter,
    converter.convert piece.lexeme = .error cause

namespace Piece

variable {selects others : Rule → Bool} {piece : Piece} {pieces : List Piece}

/-- The newlines of a match of a selected rule and of those after it. -/
theorem newlinesOf_cons_of_pos (selected : selects piece.rule = true) :
    newlinesOf selects (piece :: pieces) = piece.lexeme.newlines + newlinesOf selects pieces := by
  simp [newlinesOf, selected]

/-- The match of a rule that is not selected adds nothing. -/
theorem newlinesOf_cons_of_neg (passed : selects piece.rule = false) :
    newlinesOf selects (piece :: pieces) = newlinesOf selects pieces := by
  simp [newlinesOf, passed]

/-- The newlines of matches in a row add up. -/
theorem newlinesOf_append (left right : List Piece) :
    newlinesOf selects (left ++ right) = newlinesOf selects left + newlinesOf selects right := by
  simp [newlinesOf]

/-- Of two selections, one within the other, the newlines are the same exactly when no match that
only the wider one selects has a newline. -/
theorem newlinesOf_eq_iff (narrower : ∀ rule, selects rule = true → others rule = true) :
    newlinesOf selects pieces = newlinesOf others pieces ↔
      ∀ piece ∈ pieces, others piece.rule = true → Text.newline ∈ piece.lexeme →
        selects piece.rule = true := by
  -- What only the wider selection adds is counted apart.
  have split : newlinesOf others pieces = newlinesOf selects pieces +
      newlinesOf (fun rule => others rule && !selects rule) pieces := by
    induction pieces with
    | nil => rfl
    | cons piece rest ih =>
      cases kept : selects piece.rule with
      | true =>
        rw [newlinesOf_cons_of_pos kept, newlinesOf_cons_of_pos (narrower _ kept),
          newlinesOf_cons_of_neg (by simp [kept]), ih, Nat.add_assoc]
      | false =>
        cases wider : others piece.rule with
        | true =>
          rw [newlinesOf_cons_of_neg kept, newlinesOf_cons_of_pos wider,
            newlinesOf_cons_of_pos (by simp [kept, wider]), ih]
          omega
        | false =>
          rw [newlinesOf_cons_of_neg kept, newlinesOf_cons_of_neg wider,
            newlinesOf_cons_of_neg (by simp [wider]), ih]
  have same : newlinesOf selects pieces = newlinesOf others pieces ↔
      newlinesOf (fun rule => others rule && !selects rule) pieces = 0 := by omega
  rw [same, newlinesOf, List.sum_eq_zero_iff, List.forall_mem_map, List.forall_mem_filter]
  refine forall₂_congr fun piece _ => ?_
  rw [Text.newlines, List.count_eq_zero]
  cases selects piece.rule <;> simp

end Piece

/-- A match is skipped when its rule does not emit. Any other one becomes a token, or fails when its
literal is refused. -/
theorem Piece.read_emits (piece : Piece) (table : KeywordTable) (line : Int) :
    (piece.rule.emits = false ∧
      piece.read table line = .skipped (line + newlinesOf Rule.counts [piece])) ∨
    (piece.rule.emits = true ∧ piece.makesToken = true ∧
      ∃ token, piece.read table line = .token token ∧ piece.Yields token) ∨
    ∃ cause, piece.RefusedFor cause ∧
      piece.read table line = .failed (piece.failure line cause) := by
  generalize reads : piece.read table line = reading
  cases becomes_of_read reads with
  | silent silent =>
    exact .inl ⟨by simp [Rule.emits, silent], by simp [newlinesOf, Rule.counts, silent]⟩
  | suppressed loud suppressed =>
    refine .inl ⟨by simp [Rule.emits, suppressed], ?_⟩
    cases counting : piece.rule.countLines <;>
      simp [newlinesOf, Rule.counts, loud, suppressed, counting]
  | plain loud kept bare =>
    obtain ⟨lexeme, _, position⟩ := eq_of_read_token reads
    have emits : piece.rule.emits = true := by simp [Rule.emits, loud, kept]
    exact .inr (.inl ⟨emits, by simp [makesToken, emits, bare], _, rfl, lexeme, position⟩)
  | converted loud kept converts converted =>
    obtain ⟨lexeme, _, position⟩ := eq_of_read_token reads
    have emits : piece.rule.emits = true := by simp [Rule.emits, loud, kept]
    have makes : piece.makesToken = true := by
      simp [makesToken, emits, converts, converted, Except.isOk, Except.toBool]
    exact .inr (.inl ⟨emits, makes, _, rfl, lexeme, position⟩)
  | refused loud kept converts refused =>
    have emits : piece.rule.emits = true := by simp [Rule.emits, loud, kept]
    exact .inr (.inr ⟨_, ⟨emits, _, converts, refused⟩, rfl⟩)

/-- A match that makes a token is of a rule that emits. -/
theorem Piece.emits_of_makesToken {piece : Piece} (makes : piece.makesToken = true) :
    piece.rule.emits = true :=
  (Bool.and_eq_true_iff.mp makes).1

/-- A match of a rule that emits makes a token unless it is refused. -/
theorem Piece.makesToken_iff {piece : Piece} (emits : piece.rule.emits = true) :
    piece.makesToken = true ↔ ∀ cause, ¬piece.RefusedFor cause := by
  rw [makesToken, emits, Bool.true_and]
  cases converts : piece.rule.converter with
  | none => simp [RefusedFor, converts]
  | some converter =>
    cases converted : converter.convert piece.lexeme with
    | ok value => simp [RefusedFor, converts, converted, Except.isOk, Except.toBool]
    | error cause => simp [RefusedFor, converts, converted, emits, Except.isOk, Except.toBool]

/-- The line counter does not advance over a match of a rule that emits. -/
theorem Piece.newlinesOf_of_emits {piece : Piece} (emits : piece.rule.emits = true) :
    newlinesOf Rule.counts [piece] = 0 := by
  have kept : piece.rule.suppress = false := by simpa using (Bool.and_eq_true_iff.mp emits).1
  simp [newlinesOf, Rule.counts, kept]

/-! ## What is consumed -/

/-- What some matches leave of a stream that has read them: the answers so far give the tokens of
the matches that make one, and the line counter has advanced by the newlines of those whose rules
count. -/
structure Stream.Consumes (consumed : List Piece) (before : Int) (answers : List Answer)
    (after : Int) : Prop where
  tokens : List.Forall₂ Piece.Yields (consumed.filter Piece.makesToken)
    (answers.filterMap Answer.token?)
  line : after = before + Piece.newlinesOf Rule.counts consumed

/-- Matches are read one after the other. -/
theorem Stream.Consumes.append {first later : List Piece} {before reached after : Int}
    {answers others : List Answer} (one : Consumes first before answers reached)
    (other : Consumes later reached others after) :
    Consumes (first ++ later) before (answers ++ others) after where
  tokens := by
    rw [List.filter_append, List.filterMap_append]
    exact List.rel_append one.tokens other.tokens
  line := by
    rw [other.line, one.line, Piece.newlinesOf_append]
    push_cast
    ring

/-- A match is consumed by reading it. -/
theorem Piece.read_consumes (piece : Piece) (table : KeywordTable) (line : Int) :
    match piece.read table line with
    | .skipped next => Stream.Consumes [piece] line [] next
    | .token made => Stream.Consumes [piece] line [.token made] line
    | .failed error => Stream.Consumes [piece] line [.failed error] line := by
  obtain ⟨mute, read⟩ | ⟨emits, makes, made, read, yields⟩ | ⟨cause, refused, read⟩ :=
    piece.read_emits table line
  · rw [read]
    exact ⟨by simp [makesToken, mute], rfl⟩
  · rw [read]
    exact ⟨by simpa [makes, Answer.token?] using yields, by simp [newlinesOf_of_emits emits]⟩
  · rw [read]
    have none : piece.makesToken = false :=
      Bool.eq_false_iff.mpr fun makes => (makesToken_iff refused.1).mp makes cause refused
    exact ⟨by simp [none, Answer.token?], by simp [newlinesOf_of_emits refused.1]⟩

namespace Stream

/-- The matches of a stream are of rules of its scanner. -/
def Known (stream : Stream) : Prop :=
  ∀ piece ∈ stream.pieces, ∃ checked ∈ stream.scanner.registry.rules, checked.rule = piece.rule

/-- The stream of a source starts with matches of rules of its scanner. -/
theorem known_stream (scanner : Scanner) (source : Text) : (scanner.stream source).Known :=
  (scanner.registry.cuts source).known

/-- How the stream of some matches is left at its end: past all of them, none of which is refused,
or right after the first that is. -/
inductive EndsIn (source : Text) (ending : Ending) (last : Stream) : List Piece → Prop where
  | all {pieces : List Piece} (final : Int) (none : last.pieces = [])
      (phase : last.phase = endPhase source ending final)
      (made : ∀ piece ∈ pieces, piece.rule.emits = true → piece.makesToken = true) :
      EndsIn source ending last pieces
  | refused {front : List Piece} {piece : Piece} {cause : LiteralError} (final : Int)
      (made : ∀ other ∈ front, other.rule.emits = true → other.makesToken = true)
      (refused : piece.RefusedFor cause)
      (phase : last.phase = .failed (piece.failure final cause)) :
      EndsIn source ending last (front ++ piece :: last.pieces)

/-- A match that is not refused may stand in front. -/
theorem EndsIn.cons {source : Text} {ending : Ending} {last : Stream} {pieces : List Piece}
    {piece : Piece} (later : EndsIn source ending last pieces)
    (goesOn : piece.rule.emits = true → piece.makesToken = true) :
    EndsIn source ending last (piece :: pieces) := by
  cases later with
  | all final none phase made =>
    exact .all final none phase (List.forall_mem_cons.mpr ⟨goesOn, made⟩)
  | @refused front _ _ final made refused phase =>
    exact .refused final (List.forall_mem_cons.mpr ⟨goesOn, made⟩)
      refused phase

section Reading

variable {scanner : Scanner} (source : Text) (ending : Ending) (line : Int) {pieces : List Piece}
  (known : ∀ piece ∈ pieces, ∃ checked ∈ scanner.registry.rules, checked.rule = piece.rule)

include known

/-- Reading matches up to a token, or to the end, consumes them. -/
theorem advance_consumes :
    (advance scanner source ending line pieces).2.scanner = scanner ∧
      ∃ consumed, pieces = consumed ++ (advance scanner source ending line pieces).2.pieces ∧
        Consumes consumed line [(advance scanner source ending line pieces).1]
          (advance scanner source ending line pieces).2.line := by
  induction pieces generalizing line with
  | nil =>
    refine ⟨rfl, [], rfl, ?_, by simp [advance, Piece.newlinesOf]⟩
    cases ending <;> simp [advance, endPhase, Phase.answer, Answer.token?]
  | cons piece rest ih =>
    obtain ⟨listed, others⟩ := List.forall_mem_cons.mp known
    have first := piece.read_consumes scanner.table line
    rw [advance, Scanner.read_eq listed]
    cases read : piece.read scanner.table line with
    | skipped next =>
      rw [read] at first
      obtain ⟨same, consumed, whole, later⟩ := ih next others
      exact ⟨same, piece :: consumed, congrArg (piece :: ·) whole, first.append later⟩
    | token made =>
      rw [read] at first
      exact ⟨rfl, [piece], rfl, first⟩
    | failed error =>
      rw [read] at first
      exact ⟨rfl, [piece], rfl, first⟩

/-- Reading matches to the end leaves the stream in one of the two ways. -/
theorem endsIn_readAll :
    EndsIn source ending (readAll scanner source ending line pieces).2 pieces := by
  induction pieces generalizing line with
  | nil => exact .all line rfl rfl (by simp)
  | cons piece rest ih =>
    obtain ⟨listed, others⟩ := List.forall_mem_cons.mp known
    rw [readAll, Scanner.read_eq listed]
    obtain ⟨mute, read⟩ | ⟨_, makes, made, read, _⟩ | ⟨cause, refused, read⟩ :=
      piece.read_emits scanner.table line
    · rw [read]
      exact (ih _ others).cons fun emits => absurd emits (Bool.eq_false_iff.mp mute)
    · rw [read]
      exact (ih _ others).cons fun _ => makes
    · rw [read]
      exact @EndsIn.refused source ending _ [] piece cause line (by simp) refused rfl

end Reading

/-! ## Calls -/

/-- A call consumes matches. -/
theorem next_consumes {stream : Stream} (known : stream.Known) :
    stream.next.2.Known ∧ ∃ consumed, stream.pieces = consumed ++ stream.next.2.pieces ∧
      Consumes consumed stream.line [stream.next.1] stream.next.2.line := by
  unfold next
  split
  · obtain ⟨same, consumed, split, consumes⟩ :=
      advance_consumes stream.source stream.ending stream.line known
    refine ⟨fun piece member => ?_, consumed, split, consumes⟩
    rw [same]
    exact known piece (split ▸ List.mem_append_right _ member)
  · refine ⟨known, [], rfl, ?_, by simp [Piece.newlinesOf]⟩
    cases stream.phase <;> simp [Phase.answer, Answer.token?]

/-- Any number of calls consumes matches. -/
theorem ask_consumes (calls : Nat) {stream : Stream} (known : stream.Known) :
    ∃ consumed, stream.pieces = consumed ++ (ask calls stream).2.pieces ∧
      Consumes consumed stream.line (ask calls stream).1 (stream.counter calls) := by
  induction calls generalizing stream with
  | zero => exact ⟨[], rfl, by simp [ask], by simp [counter, ask, Piece.newlinesOf]⟩
  | succ calls ih =>
    obtain ⟨next, first, split, one⟩ := next_consumes known
    obtain ⟨later, whole, others⟩ := ih next
    refine ⟨first ++ later, ?_, one.append others⟩
    rw [split, whole, List.append_assoc]
    rfl

end Stream

end Aml
