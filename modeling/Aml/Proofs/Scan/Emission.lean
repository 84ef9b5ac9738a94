import Mathlib
import Aml.Proofs.Scan.Consumption

/-!
# Which matches become tokens

When a scan succeeds, its tokens are the consumed matches of the rules that emit, one by one and in
order, up to one that is refused for the end of the input, if there is one. They are the consumed
matches of the rules that are not suppressed exactly when none of these is refused and none is of a
silent rule (`Scanner.emission_exact`); nothing keeps a rule that is not suppressed from being
silent (`Scanner.silent_unheard`).
-/
namespace Aml

/-- A match is refused for one cause only. -/
theorem Piece.RefusedFor.unique {piece : Piece} {cause other : LiteralError}
    (one : piece.RefusedFor cause) (another : piece.RefusedFor other) : cause = other := by
  obtain ⟨_, converter, converts, refused⟩ := one
  obtain ⟨_, again, same, refusal⟩ := another
  obtain rfl := Option.mem_unique converts same
  exact Except.error.inj (refused.symm.trans refusal)

/-- Where no lexeme is refused for the end of the input, no match is. -/
theorem Scanner.Continues.not_refused {scanner : Scanner} (continues : scanner.Continues)
    {piece : Piece} {cause : LiteralError}
    (known : ∃ checked ∈ scanner.registry.rules, checked.rule = piece.rule)
    (refused : piece.RefusedFor cause) : ¬cause.endsInput = true := by
  obtain ⟨checked, listed, same⟩ := known
  obtain ⟨_, converter, converts, refusal⟩ := refused
  rw [continues checked listed converter (same ▸ converts) _ _ refusal]
  exact Bool.false_ne_true

/-- Where no error is seen, a match is refused for the end of the input only, and without such a
match all of them are read and the cut is finished. -/
theorem Stream.EndsIn.of_unseen {source : Text} {ending : Ending} {last : Stream}
    {consumed : List Piece} (ends : EndsIn source ending last (consumed ++ last.pieces))
    (unseen : last.phase.error?.filter (fun error => !error.endsInput) = none) :
    (∀ piece ∈ consumed, ∀ cause, piece.RefusedFor cause → cause.endsInput = true) ∧
      ((∀ piece ∈ consumed, ∀ cause, ¬piece.RefusedFor cause) →
        last.pieces = [] ∧ ending = .finished) := by
  generalize split : consumed ++ last.pieces = pieces at ends
  cases ends with
  | all final none phase made =>
    rw [none, List.append_nil] at split
    subst split
    have sound : ∀ piece ∈ consumed, ∀ cause, ¬piece.RefusedFor cause :=
      fun piece member cause refused =>
        (Piece.makesToken_iff refused.1).mp (made piece member refused.1) cause refused
    refine ⟨fun piece member cause refused => absurd refused (sound piece member cause),
      fun _ => ⟨none, ?_⟩⟩
    cases ending with
    | finished => rfl
    | stopped fault =>
      rw [phase] at unseen
      simp [endPhase, Phase.error?, Option.filter, fault.error_endsInput] at unseen
  | @refused front piece cause final made refused phase =>
    obtain rfl : consumed = front ++ [piece] :=
      List.append_cancel_right (split.trans (List.append_cons ..))
    have stands : cause.endsInput = true := by
      rw [phase] at unseen
      simpa [Phase.error?, Option.filter, piece.failure_endsInput] using unseen
    constructor
    · intro other member reason refusal
      obtain before | last := List.mem_append.mp member
      · exact absurd refusal
          ((Piece.makesToken_iff refusal.1).mp (made other before refusal.1) reason)
      · obtain rfl := List.mem_singleton.mp last
        exact refusal.unique refused ▸ stands
    · intro sound
      exact absurd refused (sound piece (by simp) cause)

/-- Tokens that come from the matches that make one come from the matches of the rules that are not
suppressed exactly when none of these is of a silent rule or refused. -/
theorem Piece.yields_unsuppressed_iff {consumed : List Piece} {tokens : List Token}
    (produced : List.Forall₂ Yields (consumed.filter makesToken) tokens) :
    List.Forall₂ Yields (consumed.filter (!·.rule.suppress)) tokens ↔
      ∀ piece ∈ consumed, piece.rule.suppress = false →
        piece.rule.isSilent = false ∧ ∀ cause, ¬piece.RefusedFor cause := by
  have kept {piece : Piece} (emits : piece.rule.emits = true) :
      piece.rule.suppress = false ∧ piece.rule.isSilent = false := by
    simpa [Rule.emits] using emits
  have filtered : consumed.filter makesToken =
      (consumed.filter (!·.rule.suppress)).filter makesToken := by
    rw [List.filter_filter]
    refine List.filter_congr fun piece _ => ?_
    cases makes : piece.makesToken with
    | false => rfl
    | true => simp [(kept (emits_of_makesToken makes)).1]
  constructor
  · intro direct piece member loud
    -- Both lists of matches have one token for each match, so filtering drops none.
    have lengths := produced.length_eq.trans direct.length_eq.symm
    rw [filtered, List.length_filter_eq_length_iff] at lengths
    have makes := lengths piece (List.mem_filter.mpr ⟨member, by simp [loud]⟩)
    have emits := emits_of_makesToken makes
    exact ⟨(kept emits).2, (makesToken_iff emits).mp makes⟩
  · intro heard
    rw [filtered, List.filter_eq_self.mpr] at produced
    · exact produced
    · intro piece listed
      obtain ⟨member, loud⟩ := List.mem_filter.mp listed
      obtain ⟨spoken, accepted⟩ := heard piece member (by simpa using loud)
      exact (makesToken_iff (by simpa [Rule.emits, spoken] using loud)).mpr accepted

/-- Which matches become tokens. When a scan with accepted rules succeeds, its tokens are the
consumed matches that make one, one token with the text of the match for each and in order. A
consumed match is refused only for the end of the input, and without such a match the consumed
matches make up the source. The tokens are the consumed matches of the rules that are not suppressed
exactly when none of these matches is of a silent rule or refused. -/
theorem Scanner.emission_exact {table : Option KeywordTable} {rules : List Rule} {scanner : Scanner}
    (built : Scanner.build table rules = .ok scanner) {source : Text} {tokens : List Token}
    (scanned : scanner.scan source = .ok tokens) :
    ∃ consumed,
      (scanner.registry.cut source).pieces =
        consumed ++ (Stream.ask (tokens.length + 1) (scanner.stream source)).2.pieces ∧
      (∀ piece ∈ consumed, piece.rule ∈ rules) ∧
      List.Forall₂ Piece.Yields (consumed.filter Piece.makesToken) tokens ∧
      (∀ piece ∈ consumed, ∀ cause, piece.RefusedFor cause → cause.endsInput = true) ∧
      ((∀ piece ∈ consumed, ∀ cause, ¬piece.RefusedFor cause) →
        (consumed.map Piece.lexeme).flatten = source) ∧
      (List.Forall₂ Piece.Yields (consumed.filter (!·.rule.suppress)) tokens ↔
        ∀ piece ∈ consumed, piece.rule.suppress = false →
          piece.rule.isSilent = false ∧ ∀ cause, ¬piece.RefusedFor cause) := by
  obtain ⟨accepted, _⟩ := exists_registry_of_built built
  have outcome := scan_eq_ok_iff.mp scanned
  have found : (scanner.scanUntilFailure source).1 = tokens := congrArg Prod.fst outcome
  have unseen : (scanner.lastError? source).filter (fun error => !error.endsInput) = none := by
    rw [← scanUntilFailure_snd, outcome]
  have known := Stream.known_stream scanner source
  obtain ⟨consumed, whole, yields, _⟩ := Stream.ask_consumes (tokens.length + 1) known
  have produced : List.Forall₂ Piece.Yields (consumed.filter Piece.makesToken) tokens := by
    have all : Stream.produced (tokens.length + 1) (scanner.stream source) = tokens := by
      rw [scanner.produced_stream, found, List.take_of_length_le (Nat.le_succ _)]
    exact all ▸ yields
  -- The calls that the scan makes are enough to end the stream.
  have left : (Stream.ask (tokens.length + 1) (scanner.stream source)).2 =
      (scanner.history source).2 :=
    scanner.ask_past source (by rw [found]; exact Nat.lt_succ_self _)
  rw [left] at whole ⊢
  have ended : Stream.EndsIn source (scanner.registry.cut source).ending (scanner.history source).2
      (consumed ++ (scanner.history source).2.pieces) :=
    whole ▸ Stream.endsIn_readAll source _ 1 known
  obtain ⟨refusals, ends⟩ := ended.of_unseen unseen
  refine ⟨consumed, whole, fun piece member => ?_, produced, refusals, fun sound => ?_,
    Piece.yields_unsuppressed_iff produced⟩
  · have listed : piece ∈ (scanner.stream source).pieces := whole ▸ List.mem_append_left _ member
    exact (scanner.registry.cuts source).rule_mem accepted piece listed
  · obtain ⟨none, finished⟩ := ends sound
    rw [none, List.append_nil] at whole
    have flat := (scanner.registry.cuts source).flatten finished
    rw [Text.ofCharacters_characters] at flat
    exact whole ▸ flat

/-- Of a name, blanks, an operator and a comment, which make up the source, the name and the
operator become tokens. -/
theorem Scanner.emission_exact_commented :
    (Scanner.language .empty).scan ("a + #b" : String) =
        .ok [⟨.operand .identifier, "a", some (.string "a"), 1, ⟨1, 1, 0⟩⟩,
          ⟨.operator .add, "+", none, 1, ⟨1, 3, 2⟩⟩] ∧
      ∃ consumed : List Piece, (consumed.map Piece.lexeme).flatten = ("a + #b" : String) ∧
        List.Forall₂ Piece.Yields (consumed.filter (!·.rule.suppress))
          [⟨.operand .identifier, "a", some (.string "a"), 1, ⟨1, 1, 0⟩⟩,
            ⟨.operator .add, "+", none, 1, ⟨1, 3, 2⟩⟩] := by
  have scanned : (Scanner.language .empty).scan ("a + #b" : String) =
      .ok [⟨.operand .identifier, "a", some (.string "a"), 1, ⟨1, 1, 0⟩⟩,
        ⟨.operator .add, "+", none, 1, ⟨1, 3, 2⟩⟩] := by rfl
  have loud : ∀ rule ∈ Rule.defaults, rule.suppress = false → rule.isSilent = false := by decide
  obtain ⟨consumed, whole, listed, _, refusals, flat, exact⟩ :=
    emission_exact (build_defaults .empty) scanned
  have sound : ∀ piece ∈ consumed, ∀ cause, ¬piece.RefusedFor cause := by
    intro piece member cause refused
    have cut : piece ∈ ((language .empty).registry.cut ("a + #b" : String)).pieces :=
      whole ▸ List.mem_append_left _ member
    have known := Stream.known_stream (language .empty) ("a + #b" : String) piece cut
    exact (language_continues .empty).not_refused known refused
      (refusals piece member cause refused)
  exact ⟨scanned, consumed, flat sound, exact.mpr fun piece member kept =>
    ⟨loud piece.rule (listed piece member) kept, sound piece member⟩⟩

/-- A rule for words that is not suppressed and whose name starts with a lower-case letter. -/
def Rule.lowerWord : Rule where
  name := "word"
  kind := .operand .identifier
  pattern := "[a-z]+"

/-- A silent rule that is not suppressed is accepted, and its match is consumed without a token. -/
theorem Scanner.silent_unheard :
    Rule.lowerWord.suppress = false ∧
      ∃ scanner, Scanner.build (some .empty) [Rule.lowerWord] = .ok scanner ∧
        (scanner.registry.cut ("ab" : String)).pieces = [⟨Rule.lowerWord, "ab", .start⟩] ∧
        scanner.scan ("ab" : String) = .ok [] := by
  have observed : (Scanner.build (some .empty) [Rule.lowerWord]).map (fun scanner =>
      ((scanner.registry.cut ("ab" : String)).pieces, scanner.scan ("ab" : String))) =
      .ok ([⟨Rule.lowerWord, "ab", .start⟩], .ok []) := by rfl
  obtain ⟨scanner, built, outcome⟩ := exists_built_of_map observed
  obtain ⟨cut, scanned⟩ := Prod.mk.inj outcome
  exact ⟨rfl, scanner, built, cut, scanned⟩

end Aml
