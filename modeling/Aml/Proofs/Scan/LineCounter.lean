import Mathlib
import Aml.Proofs.Scan.Consumption

/-!
# Which newlines the line counter counts

A rule says with one field that the newlines of its matches count, but two others have a say as
well: the counter advances only over the match of a rule that is suppressed and not silent
(`Piece.read_consumes`). A call consumes matches up to a token, or to the end, and counts in just
this way (`Stream.next_consumes`), and so does any number of calls (`Stream.ask_consumes`). Hence
the counter is 1 more than the newlines of all matches so far of the rules that ask for it exactly
when those of them that have newlines are of rules that are suppressed and not silent
(`Scanner.counter_exact`). Nothing keeps other rules from asking for it
(`Scanner.newlines_uncounted`).
-/
namespace Aml

/-- Which newlines the line counter counts. A stream of accepted rules has, after any number of
calls, consumed the first matches of its source: those from which its tokens so far come, and those
between them. Its line counter is 1 more than the newlines of the consumed matches of rules that
count lines, are suppressed and are not silent. It is 1 more than the newlines of the consumed
matches of all rules that count lines exactly when each of these with a newline is of a rule that is
suppressed and not silent. -/
theorem Scanner.counter_exact {table : Option KeywordTable} {rules : List Rule} {scanner : Scanner}
    (built : Scanner.build table rules = .ok scanner) (source : Text) (calls : Nat) :
    ∃ consumed,
      (scanner.registry.cut source).pieces =
        consumed ++ (Stream.ask calls (scanner.stream source)).2.pieces ∧
      (∀ piece ∈ consumed, piece.rule ∈ rules) ∧
      List.Forall₂ Piece.Yields (consumed.filter Piece.makesToken)
        (Stream.produced calls (scanner.stream source)) ∧
      (scanner.stream source).counter calls = 1 + Piece.newlinesOf Rule.counts consumed ∧
      ((scanner.stream source).counter calls = 1 + Piece.newlinesOf Rule.countLines consumed ↔
        ∀ piece ∈ consumed, piece.rule.countLines = true → Text.newline ∈ piece.lexeme →
          piece.rule.suppress = true ∧ piece.rule.isSilent = false) := by
  obtain ⟨accepted, _⟩ := exists_registry_of_built built
  obtain ⟨consumed, whole, tokens, line⟩ :=
    Stream.ask_consumes calls (Stream.known_stream scanner source)
  have start : (scanner.stream source).line = 1 := rfl
  rw [start] at line
  refine ⟨consumed, whole, fun piece member => ?_, tokens, line, ?_⟩
  · have listed : piece ∈ (scanner.stream source).pieces :=
      whole ▸ List.mem_append_left _ member
    exact (scanner.registry.cuts source).rule_mem accepted piece listed
  · have narrower : ∀ rule : Rule, rule.counts = true → rule.countLines = true := by
      simp +contextual [Rule.counts]
    rw [line, add_right_inj, Nat.cast_inj, Piece.newlinesOf_eq_iff narrower]
    refine forall₃_congr fun piece _ counting => ?_
    simp [Rule.counts, counting]

/-- A name, two newlines, a comment, a newline and a name: with the rules of the language the
counter counts every newline. -/
theorem Scanner.counter_exact_commented :
    ((language .empty).stream ("a\n\n#b\nc" : String)).counter 2 = 4 ∧
      ((language .empty).stream ("a\n\n#b\nc" : String)).counter 2 =
        1 + Piece.newlinesOf Rule.countLines
          ((language .empty).registry.cut ("a\n\n#b\nc" : String)).pieces := by
  have counting : ∀ rule ∈ Rule.defaults, rule.countLines = true →
      rule.suppress = true ∧ rule.isSilent = false := by decide
  have finished :
      (Stream.ask 2 ((language .empty).stream ("a\n\n#b\nc" : String))).2.pieces = [] := by rfl
  obtain ⟨consumed, whole, listed, _, _, exact⟩ :=
    counter_exact (build_defaults .empty) ("a\n\n#b\nc" : String) 2
  rw [finished, List.append_nil] at whole
  refine ⟨by rfl, whole ▸ exact.mpr fun piece member counts _ => ?_⟩
  exact counting piece.rule (listed piece member) counts

/-- A rule for newlines that counts them and makes tokens of them. -/
def Rule.emittedBreak : Rule where
  name := "BREAK"
  kind := .operand .identifier
  pattern := "\\n+"
  countLines := true

/-- A suppressed rule for newlines that counts them and whose name starts with a lower-case
letter. -/
def Rule.silentBreak : Rule where
  name := "break"
  pattern := "\\n+"
  suppress := true
  countLines := true

/-- Rules that count lines are accepted, and the newline that they match is consumed without being
counted: by a rule that is not suppressed, and by one that is silent. -/
theorem Scanner.newlines_uncounted :
    (∃ scanner, Scanner.build (some .empty) [Rule.emittedBreak] = .ok scanner ∧
      (Stream.ask 1 (scanner.stream ("\n" : String))).2.pieces = [] ∧
      Piece.newlinesOf Rule.countLines (scanner.registry.cut ("\n" : String)).pieces = 1 ∧
      (scanner.stream ("\n" : String)).counter 1 = 1) ∧
    ∃ scanner, Scanner.build (some .empty) [Rule.silentBreak] = .ok scanner ∧
      (Stream.ask 1 (scanner.stream ("\n" : String))).2.pieces = [] ∧
      Piece.newlinesOf Rule.countLines (scanner.registry.cut ("\n" : String)).pieces = 1 ∧
      (scanner.stream ("\n" : String)).counter 1 = 1 := by
  have observed (rule : Rule) (seen : (Scanner.build (some .empty) [rule]).map (fun scanner =>
      ((Stream.ask 1 (scanner.stream ("\n" : String))).2.pieces,
        Piece.newlinesOf Rule.countLines (scanner.registry.cut ("\n" : String)).pieces,
        (scanner.stream ("\n" : String)).counter 1)) = .ok ([], 1, 1)) :
      ∃ scanner, Scanner.build (some .empty) [rule] = .ok scanner ∧
        (Stream.ask 1 (scanner.stream ("\n" : String))).2.pieces = [] ∧
        Piece.newlinesOf Rule.countLines (scanner.registry.cut ("\n" : String)).pieces = 1 ∧
        (scanner.stream ("\n" : String)).counter 1 = 1 := by
    obtain ⟨scanner, built, outcome⟩ := exists_built_of_map seen
    simp only [Prod.mk.injEq] at outcome
    exact ⟨scanner, built, outcome⟩
  exact ⟨observed Rule.emittedBreak (by rfl), observed Rule.silentBreak (by rfl)⟩

end Aml
