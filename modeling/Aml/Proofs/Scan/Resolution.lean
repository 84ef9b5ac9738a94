import Mathlib
import Aml.Proofs.Rule.Acceptance
import Aml.Proofs.Scan.Language

/-!
# The keyword table decides no cut

Two scanners with the same rules and different keyword tables cut every source alike. A table is
consulted only once a piece has its value (`Piece.read_resolves`), so it can neither cause a failure
nor hide one, and what a piece becomes under two tables is `Resolved` by them: the same token,
unless its rule reads names and the tables disagree on the lexeme. Reading pieces in step
(`Stream.readAll_resolved`) carries this from one piece to a whole scan.
-/
namespace Aml

/-- The value that the converter of a rule gives a lexeme, if it gives one. -/
def Rule.value? (rule : Rule) (lexeme : Text) : Option Value :=
  rule.converter.bind fun converter => (converter.convert lexeme).toOption.join

/-- The token of a piece before any keyword table is consulted. -/
def Piece.plain (piece : Piece) (line : Int) : Token :=
  ⟨piece.rule.kind, piece.lexeme, piece.rule.value? piece.lexeme, line, piece.position⟩

/-- A piece is skipped or fails whatever the keyword table, or becomes a token that every table
resolves from the same plain one. -/
theorem Piece.read_resolves (piece : Piece) (line : Int) :
    (∃ next, ∀ table, piece.read table line = .skipped next) ∨
    (∃ error, ∀ table, piece.read table line = .failed error) ∨
    ∀ table : KeywordTable,
      piece.read table line = .token (table.resolve piece.rule (piece.plain line)) := by
  by_cases silent : piece.rule.isSilent = true
  · exact .inl ⟨line, fun table => by rw [read, if_pos silent]⟩
  by_cases suppressed : piece.rule.suppress = true
  · exact .inl ⟨_, fun table => by rw [read, if_neg silent, if_pos suppressed]⟩
  have loud := Bool.eq_false_iff.mpr silent
  have kept := Bool.eq_false_iff.mpr suppressed
  cases converts : piece.rule.converter with
  | none =>
    refine .inr (.inr fun table => ?_)
    have made : piece.token table line = .ok (table.resolve piece.rule (piece.plain line)) := by
      simp only [token, plain, Rule.value?, converts, Option.bind_none]
    rw [read, if_neg silent, if_neg suppressed, made]
  | some converter =>
    cases converted : converter.convert piece.lexeme with
    | error cause =>
      exact .inr (.inl ⟨_, fun table => read_of_convert_error loud kept converts converted⟩)
    | ok value =>
      refine .inr (.inr fun table => ?_)
      have valued : piece.rule.value? piece.lexeme = value := by
        rw [Rule.value?, converts, Option.bind_some, converted]
        rfl
      rw [plain, valued]
      exact read_of_convert_ok loud kept converts converted

/-- The kind and the value of a token as a keyword table resolves the name that a piece spells. -/
def Token.NamedBy (token : Token) (table : KeywordTable) (piece : Piece) : Prop :=
  match table.lookup? piece.lexeme with
  | some kind => token.kind = .reserved kind ∧ token.value = none
  | none => token.kind = .operand .identifier ∧ token.value = piece.rule.value? piece.lexeme

/-- Two tokens that one piece makes under two keyword tables. -/
structure Resolved (one other : KeywordTable) (piece : Piece) (left right : Token) : Prop where
  /-- Both have the text of the piece. -/
  lexeme : left.lexeme = piece.lexeme ∧ right.lexeme = piece.lexeme
  /-- Both stand where the piece does. -/
  position : left.position = piece.position ∧ right.position = piece.position
  /-- Both are on one logical line. -/
  line : left.line = right.line
  /-- They have one kind and one value unless the tables disagree on a name. -/
  alike : (piece.rule.kind = .operand .identifier →
    one.lookup? piece.lexeme = other.lookup? piece.lexeme) →
      left.kind = right.kind ∧ left.value = right.value
  /-- A name has the kind and the value that its own table gives it. -/
  named : piece.rule.kind = .operand .identifier →
    left.NamedBy one piece ∧ right.NamedBy other piece

section Resolve

variable (table : KeywordTable) (piece : Piece) (line : Int)

/-- A name is resolved to the kind and the value that the table gives it. -/
theorem KeywordTable.resolve_namedBy (name : piece.rule.kind = .operand .identifier) :
    (table.resolve piece.rule (piece.plain line)).NamedBy table piece := by
  have text : (piece.plain line).lexeme = piece.lexeme := rfl
  unfold resolve Token.NamedBy
  rw [if_pos name, text]
  cases table.lookup? piece.lexeme with
  | some kind => exact ⟨rfl, rfl⟩
  | none => exact ⟨name, rfl⟩

/-- Tables that agree on a name, if there is one, resolve a piece alike. -/
theorem KeywordTable.resolve_congr {other : KeywordTable}
    (agree : piece.rule.kind = .operand .identifier →
      table.lookup? piece.lexeme = other.lookup? piece.lexeme) :
    table.resolve piece.rule (piece.plain line) = other.resolve piece.rule (piece.plain line) := by
  have text : (piece.plain line).lexeme = piece.lexeme := rfl
  unfold resolve
  by_cases name : piece.rule.kind = .operand .identifier
  · rw [if_pos name, if_pos name, text, agree name]
  · rw [if_neg name, if_neg name]

/-- What two tables make of the plain token of a piece. -/
theorem Piece.resolved (other : KeywordTable) :
    Resolved table other piece (table.resolve piece.rule (piece.plain line))
      (other.resolve piece.rule (piece.plain line)) := by
  obtain ⟨oneText, oneLine, onePlace⟩ := table.resolve_keeps piece.rule (piece.plain line)
  obtain ⟨otherText, otherLine, otherPlace⟩ := other.resolve_keeps piece.rule (piece.plain line)
  refine ⟨⟨oneText, otherText⟩, ⟨onePlace, otherPlace⟩, oneLine.trans otherLine.symm, ?_, ?_⟩
  · intro agree
    rw [table.resolve_congr piece line agree]
    exact ⟨rfl, rfl⟩
  · intro name
    exact ⟨table.resolve_namedBy piece line name, other.resolve_namedBy piece line name⟩

end Resolve

/-- Reading the same pieces under two tables gives tokens that the tables resolve from them, one by
one, and leaves the line counter and the phase alike. -/
theorem Stream.readAll_resolved {one other : Scanner} (shared : other.registry = one.registry)
    (source : Text) (ending : Ending) (line : Int) {pieces : List Piece}
    (known : ∀ piece ∈ pieces, ∃ checked ∈ one.registry.rules, checked.rule = piece.rule) :
    let ours := readAll one source ending line pieces
    let theirs := readAll other source ending line pieces
    List.Forall₂ (fun left right => ∃ piece ∈ pieces,
        Resolved one.table other.table piece left right) ours.1 theirs.1 ∧
      ours.2.line = theirs.2.line ∧ ours.2.phase = theirs.2.phase := by
  induction pieces generalizing line with
  | nil => exact ⟨.nil, rfl, rfl⟩
  | cons piece rest ih =>
    obtain ⟨listed, others⟩ := List.forall_mem_cons.mp known
    have widen {left right : Token}
        (found : ∃ piece ∈ rest, Resolved one.table other.table piece left right) :
        ∃ found ∈ piece :: rest, Resolved one.table other.table found left right := by
      obtain ⟨source, member, resolved⟩ := found
      exact ⟨source, List.mem_cons_of_mem _ member, resolved⟩
    rw [readAll, readAll, Scanner.read_eq listed, Scanner.read_eq (shared ▸ listed)]
    obtain ⟨next, skipped⟩ | ⟨error, failed⟩ | made := piece.read_resolves line
    · rw [skipped, skipped]
      exact ⟨(ih next others).1.imp fun _ _ => widen, (ih next others).2⟩
    · rw [failed, failed]
      exact ⟨.nil, rfl, rfl⟩
    · rw [made, made]
      refine ⟨.cons ?_ ((ih line others).1.imp fun _ _ => widen), (ih line others).2⟩
      exact ⟨piece, List.mem_cons_self, piece.resolved one.table line other.table⟩

/-- The keyword table never influences how text is cut. Two scanners with the same rules fail with
the same errors on the same sources. When they succeed they give as many tokens, and the tokens at
one place are what the two tables resolve from one match of one of the rules: they differ at most
in the kind and the value, and only where the rule reads names and the tables disagree on the
lexeme. -/
theorem Scanner.table_decides_no_cut {first second : KeywordTable} {rules : List Rule}
    {one other : Scanner} (built : Scanner.build (some first) rules = .ok one)
    (rebuilt : Scanner.build (some second) rules = .ok other) (source : Text) :
    (∀ error, one.scan source = .error error ↔ other.scan source = .error error) ∧
    ∀ tokens, one.scan source = .ok tokens → ∃ others, other.scan source = .ok others ∧
      List.Forall₂ (fun left right => ∃ piece ∈ (one.registry.cut source).pieces,
        piece.rule ∈ rules ∧ Resolved first second piece left right) tokens others := by
  obtain ⟨accepted, sameFirst⟩ := exists_registry_of_built built
  obtain ⟨acceptedAgain, sameSecond⟩ := exists_registry_of_built rebuilt
  have registries : other.registry = one.registry :=
    Except.ok.inj (acceptedAgain.symm.trans accepted)
  obtain rfl := Option.some.inj sameFirst
  obtain rfl := Option.some.inj sameSecond
  obtain ⟨resolved, _, phases⟩ := Stream.readAll_resolved registries source
    (one.registry.cut source).ending 1 (one.registry.cuts source).known
  have restarted : other.history source = Stream.readAll other source
      (one.registry.cut source).ending 1 (one.registry.cut source).pieces := by
    rw [← registries]
    rfl
  have errors : (one.scanUntilFailure source).2 = (other.scanUntilFailure source).2 := by
    rw [one.scanUntilFailure_snd, other.scanUntilFailure_snd, lastError?, lastError?, restarted,
      ← phases]
    rfl
  refine ⟨fun error => by rw [scan_eq_error_iff, scan_eq_error_iff, errors], ?_⟩
  intro tokens scanned
  have outcome := scan_eq_ok_iff.mp scanned
  refine ⟨(other.scanUntilFailure source).1, scan_eq_ok_iff.mpr (Prod.ext rfl ?_), ?_⟩
  · rw [← errors, outcome]
  · obtain rfl : (one.scanUntilFailure source).1 = tokens := by rw [outcome]
    rw [one.scanUntilFailure_eq, other.scanUntilFailure_eq, restarted]
    refine resolved.imp fun left right found => ?_
    obtain ⟨piece, member, pair⟩ := found
    have listed := (one.registry.cuts source).rule_mem accepted piece member
    exact ⟨piece, member, listed, pair⟩

/-- A word that only one of two tables knows is a keyword in one scan and a name in the other. -/
theorem Scanner.table_decides_no_cut_keyword :
    (Scanner.language ⟨[⟨"list", .listType, .type⟩]⟩).scan ("list -2" : String) =
        .ok [⟨.reserved .listType, "list", none, 1, ⟨1, 1, 0⟩⟩,
          ⟨.operand .integer, "-2", some (.integer (-2)), 1, ⟨1, 6, 5⟩⟩] ∧
      ∃ others, (Scanner.language .empty).scan ("list -2" : String) = .ok others ∧
        List.Forall₂ (fun left right => ∃ piece ∈
            ((Scanner.language ⟨[⟨"list", .listType, .type⟩]⟩).registry.cut
              ("list -2" : String)).pieces,
          piece.rule ∈ Rule.defaults ∧
            Resolved ⟨[⟨"list", .listType, .type⟩]⟩ .empty piece left right)
          [⟨.reserved .listType, "list", none, 1, ⟨1, 1, 0⟩⟩,
            ⟨.operand .integer, "-2", some (.integer (-2)), 1, ⟨1, 6, 5⟩⟩] others := by
  have scanned : (Scanner.language ⟨[⟨"list", .listType, .type⟩]⟩).scan ("list -2" : String) =
      .ok [⟨.reserved .listType, "list", none, 1, ⟨1, 1, 0⟩⟩,
        ⟨.operand .integer, "-2", some (.integer (-2)), 1, ⟨1, 6, 5⟩⟩] := by rfl
  exact ⟨scanned,
    (table_decides_no_cut (build_defaults _) (build_defaults .empty) _).2 _ scanned⟩

end Aml
