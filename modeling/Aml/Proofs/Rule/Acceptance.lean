import Mathlib
import Aml.Proofs.Scan.Judgment

/-!
# Accepted rules

A registry is built only from rules that pass every check, and it holds exactly the rules that it
was built from (`Registry.checked_of_mem`). A rule that makes tokens therefore has a declared kind
(`Rule.check_declared`), and so has every token of a scan with accepted rules
(`Scanner.family_of_mem`): asking for its family never fails.
-/
namespace Aml

namespace Rule

/-! ## What the checks guarantee -/

/-- A simple rule that passes its check makes tokens of an operator. -/
theorem checkSimple_declared {rule : Rule} (passed : rule.checkSimple = .ok ()) :
    rule.kind.isDeclared = true := by
  unfold checkSimple at passed
  split at passed
  · contradiction
  · rename_i operator
    cases kind : rule.kind with
    | operator => rfl
    | reserved | operand | undeclared => simp [kind, Kind.isOperator] at operator

/-- A content rule that passes its check is suppressed or has a declared kind. -/
theorem checkContent_declared {rule : Rule} (passed : rule.checkContent = .ok ()) :
    rule.suppress = true ∨ rule.kind.isDeclared = true := by
  unfold checkContent at passed
  split at passed
  · contradiction
  · split at passed
    · contradiction
    · split at passed
      · contradiction
      · rename_i allowed
        cases kind : rule.kind with
        | undeclared index =>
          refine .inl (Bool.eq_true_of_not_eq_false fun kept => ?_)
          exact allowed index kept kind
        | reserved | operator | operand => exact .inr rfl

/-- A rule that passes every check has a pattern and a declared tier, whose check it passes. -/
theorem check_cases {rule : Rule} {earlier : List Rule} (passed : rule.check earlier = .ok ()) :
    rule.pattern ≠ [] ∧
      (rule.tier = .content ∧ rule.checkContent = .ok () ∨
        rule.tier = .simple ∧ rule.checkSimple = .ok ()) := by
  unfold check at passed
  split at passed
  · contradiction
  · split at passed
    · contradiction
    · split at passed
      · contradiction
      · rename_i declared
        split at passed
        · contradiction
        · split at passed
          · contradiction
          · rename_i present
            refine ⟨present, ?_⟩
            cases tier : rule.tier with
            | content => exact .inl ⟨rfl, by simpa only [tier] using passed⟩
            | simple => exact .inr ⟨rfl, by simpa only [tier] using passed⟩
            | undeclared index => exact absurd tier (declared index)

/-- A rule that passes every check is suppressed or has a declared kind. -/
theorem check_declared {rule : Rule} {earlier : List Rule} (passed : rule.check earlier = .ok ()) :
    rule.suppress = true ∨ rule.kind.isDeclared = true := by
  obtain ⟨_, ⟨_, content⟩ | ⟨_, simple⟩⟩ := check_cases passed
  · exact checkContent_declared content
  · exact .inr (checkSimple_declared simple)

/-- Each rule of an accepted list passes its check against the rules before it. -/
theorem check_of_checkAll {rules earlier : List Rule} (passed : checkAll rules earlier = .ok ()) :
    ∀ rule ∈ rules, ∃ before, rule.check before = .ok () := by
  induction rules generalizing earlier with
  | nil => simp
  | cons rule rest ih =>
    rw [checkAll] at passed
    split at passed
    · contradiction
    · rename_i checked
      exact List.forall_mem_cons.mpr ⟨⟨earlier, checked⟩, ih passed⟩

end Rule

namespace Registry

/-- Every rule of a registry is one that it was built from and passes the checks. -/
theorem checked_of_mem {rules : List Rule} {registry : Registry}
    (built : ofRules rules = .ok registry) :
    ∀ checked ∈ registry.rules, checked.rule ∈ rules ∧
      ∃ earlier, checked.rule.check earlier = .ok () := by
  obtain ⟨_, passed, made⟩ := ofRules_eq_ok_iff.mp built
  intro checked member
  have listed : checked.rule ∈ rules := by
    rw [← (Rule.inOrder_perm rules).mem_iff, ← Rule.map_withMatchers made]
    exact List.mem_map_of_mem member
  exact ⟨listed, Rule.check_of_checkAll passed _ listed⟩

/-- Every piece of a cut is a match of one of the rules that the registry was built from. -/
theorem Cuts.rule_mem {rules : List Rule} {registry : Registry}
    (built : ofRules rules = .ok registry) {characters : List Character} {position : Position}
    {pieces : List Piece} {ending : Ending}
    (cuts : registry.Cuts characters position pieces ending) :
    ∀ piece ∈ pieces, piece.rule ∈ rules := by
  intro piece member
  obtain ⟨checked, listed, same⟩ := cuts.known piece member
  exact same ▸ (checked_of_mem built checked listed).1

end Registry

/-! ## The kinds of tokens -/

/-- A token has the kind of its rule, which is not suppressed, or is a name with a reserved one. -/
theorem Piece.kind_of_read_token {piece : Piece} {table : KeywordTable} {line : Int}
    {token : Token} (read : piece.read table line = .token token) :
    piece.rule.suppress = false ∧
      (token.kind = piece.rule.kind ∨
        piece.rule.kind = .operand .identifier ∧ ∃ kind, token.kind = .reserved kind) := by
  have resolved (value : Option Value) :
      let made := table.resolve piece.rule
        ⟨piece.rule.kind, piece.lexeme, value, line, piece.position⟩
      made.kind = piece.rule.kind ∨
        piece.rule.kind = .operand .identifier ∧ ∃ kind, made.kind = .reserved kind := by
    simp only [KeywordTable.resolve]
    split
    · rename_i name
      split
      · exact .inr ⟨name, _, rfl⟩
      · exact .inl rfl
    · exact .inl rfl
  cases becomes_of_read read with
  | plain _ kept => exact ⟨kept, resolved none⟩
  | converted _ kept => exact ⟨kept, resolved _⟩

namespace Scanner

/-- A scanner is built from a keyword table and accepted rules. -/
theorem exists_registry_of_built {table : Option KeywordTable} {rules : List Rule}
    {scanner : Scanner} (built : Scanner.build table rules = .ok scanner) :
    Registry.ofRules rules = .ok scanner.registry ∧ table = some scanner.table := by
  unfold build at built
  split at built
  · contradiction
  · split at built
    · rename_i accepted
      obtain rfl := Except.ok.inj built
      exact ⟨accepted, rfl⟩
    · contradiction

/-- What is observed of a scanner that can be built is observed of one. -/
theorem exists_built_of_map {α : Type} {table : Option KeywordTable} {rules : List Rule}
    {observe : Scanner → α} {seen : α}
    (observed : (Scanner.build table rules).map observe = .ok seen) :
    ∃ scanner, Scanner.build table rules = .ok scanner ∧ observe scanner = seen := by
  cases built : Scanner.build table rules with
  | error fault =>
    rw [built] at observed
    contradiction
  | ok scanner =>
    rw [built] at observed
    exact ⟨scanner, rfl, Except.ok.inj observed⟩

/-- Every token of a scan has a declared kind when every rule that is not suppressed has one. -/
theorem Scans.declared {scanner : Scanner}
    (declared : ∀ checked ∈ scanner.registry.rules,
      checked.rule.suppress = true ∨ checked.rule.kind.isDeclared = true)
    {characters : List Character} {position : Position} {line final : Int} {tokens : List Token}
    {error : Option ScanError}
    (scans : scanner.Scans characters position line tokens final error) :
    ∀ token ∈ tokens, token.kind.isDeclared = true := by
  induction scans with
  | finished | illegal | failed => simp
  | skipped split read later ih => exact ih
  | token split read later ih =>
    refine List.forall_mem_cons.mpr ⟨?_, ih⟩
    obtain ⟨checked, member, rfl⟩ := Registry.mem_of_split? split
    obtain ⟨kept, same | ⟨_, kind, reserved⟩⟩ := Piece.kind_of_read_token read
    · obtain suppressed | known := declared checked member
      · exact absurd suppressed (Bool.eq_false_iff.mp kept)
      · rwa [same]
    · rw [reserved]
      rfl

/-- Every token of a scan with accepted rules belongs to a family. -/
theorem family_of_mem {table : Option KeywordTable} {rules : List Rule} {scanner : Scanner}
    (built : Scanner.build table rules = .ok scanner) (source : Text) :
    ∀ token ∈ (scanner.scanUntilFailure source).1, ∃ family, token.kind.family = .ok family := by
  obtain ⟨accepted, _⟩ := exists_registry_of_built built
  have declared : ∀ checked ∈ scanner.registry.rules,
      checked.rule.suppress = true ∨ checked.rule.kind.isDeclared = true := by
    intro checked member
    obtain ⟨_, _, passed⟩ := Registry.checked_of_mem accepted checked member
    exact Rule.check_declared passed
  intro token member
  have known := (scanner.scans source).declared declared token member
  cases kind : token.kind with
  | reserved => exact ⟨.reserved, rfl⟩
  | operator => exact ⟨.operator, rfl⟩
  | operand => exact ⟨.operand, rfl⟩
  | undeclared =>
    rw [kind] at known
    contradiction

end Scanner

end Aml
