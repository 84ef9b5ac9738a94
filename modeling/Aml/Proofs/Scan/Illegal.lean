import Mathlib
import Aml.Proofs.Rule.Faithful
import Aml.Proofs.Scan.Reach

/-!
# Where characters are illegal

A scan reports an illegal character where no rule takes any characters. That is not the same as a
place where no rule has a match: trying the rules ends at the first one that does not miss, also
when it takes nothing there or is refused. Such a rule hides every rule tried after it, and its own
other matches too (`Registry.hidden_of_stuck`), although the check of rules is meant to keep it out:
it tries a pattern on the empty text only, where an assertion may fail that holds elsewhere. Every
match at an illegal character is hidden by such a rule, so where there is none the place has no
match at all (`Scanner.illegal_hidden`).
-/
namespace Aml

/-- A rule that ends the trial without taking characters: it is taken for a back-reference, or its
pattern allows an empty match. -/
def Rule.Hides (rule : Rule) (characters : List Character) : Prop :=
  rule.tier = .content ∧ (isReference rule.pattern = true ∨ rule.Admits characters 0)

namespace Registry

/-- Trying rules ends with no characters taken when none of them has a match, or at the first that
does not miss. -/
theorem choose_stuck {rules : List CheckedRule} {characters : List Character}
    (faithful : ∀ checked ∈ rules,
      checked.rule.Answers characters (checked.matcher.attempt characters))
    (stuck : ∀ rule length, choose rules characters = some (rule, length) → length = 0) :
    (∀ rule ∈ rules.map CheckedRule.rule, ∀ size, ¬rule.Admits characters size) ∨
      ∃ earlier culprit later, rules.map CheckedRule.rule = earlier ++ culprit :: later ∧
        (∀ rule ∈ earlier, ∀ size, ¬rule.Admits characters size) ∧
        (culprit.Admits characters 0 ∨
          culprit.tier = .content ∧ Rule.isReference culprit.pattern = true) := by
  induction rules with
  | nil => exact .inl (List.forall_mem_nil _)
  | cons checked rest ih =>
    obtain ⟨answer, others⟩ := List.forall_mem_cons.mp faithful
    rw [choose] at stuck
    generalize checked.matcher.attempt characters = trial at answer stuck
    cases answer with
    | matched admits =>
      obtain rfl := stuck _ _ rfl
      exact .inr ⟨[], checked.rule, _, rfl, List.forall_mem_nil _, .inl admits⟩
    | refused content reference =>
      exact .inr ⟨[], checked.rule, _, rfl, List.forall_mem_nil _, .inr ⟨content, reference⟩⟩
    | missed nothing =>
      obtain none | ⟨earlier, culprit, later, whole, before, hides⟩ := ih others stuck
      · exact .inl (List.forall_mem_cons.mpr ⟨nothing, none⟩)
      · refine .inr ⟨checked.rule :: earlier, culprit, later, ?_,
          List.forall_mem_cons.mpr ⟨nothing, before⟩, hides⟩
        rw [List.map_cons, whole, List.cons_append]

/-- Where accepted rules take no characters, every match of a rule is hidden by the rule itself or
by one that is tried before it. -/
theorem hidden_of_stuck {rules : List Rule} {registry : Registry}
    (built : ofRules rules = .ok registry) {characters : List Character}
    (stuck : registry.split? characters = none) :
    ∀ rule ∈ rules, ∀ size, rule.Admits characters size →
      ∃ culprit ∈ rules, culprit.Hides characters ∧
        (culprit = rule ∨ culprit.TriedBefore rule) := by
  have listed {rule : Rule} : rule ∈ registry.rules.map CheckedRule.rule ↔ rule ∈ rules :=
    (map_rule_perm built).mem_iff
  have ordered := pairwise_triedBefore built
  have chosen (rule : Rule) (length : Nat)
      (found : choose registry.rules characters = some (rule, length)) : length = 0 := by
    cases length with
    | zero => rfl
    | succ length => simp [split?, found] at stuck
  intro rule member size admits
  obtain none | ⟨earlier, culprit, later, whole, before, hides⟩ :=
    choose_stuck (answers_of_mem built characters) chosen
  · exact absurd admits (none rule (listed.mpr member) size)
  · have guilty : culprit ∈ rules := by
      rw [← listed, whole]
      exact List.mem_append_right _ List.mem_cons_self
    rw [whole] at ordered
    refine ⟨culprit, guilty, ?_, ?_⟩
    · obtain empty | reference := hides
      · obtain ⟨_, passed, _⟩ := ofRules_eq_ok_iff.mp built
        obtain ⟨_, checked⟩ := Rule.check_of_checkAll passed culprit guilty
        obtain content | simple := Rule.tier_of_check checked
        · exact ⟨content, .inr empty⟩
        · exact absurd empty (Rule.not_admits_zero_of_simple checked simple)
      · exact ⟨reference.1, .inl reference.2⟩
    · rw [← listed, whole] at member
      obtain front | back := List.mem_append.mp member
      · exact absurd admits (before rule front size)
      · obtain rfl | after := List.mem_cons.mp back
        · exact .inl rfl
        · exact .inr (List.rel_of_pairwise_cons (List.pairwise_append.mp ordered).2.1 after)

end Registry

/-- Reading a piece reports no illegal character. -/
theorem Piece.read_ne_illegal {piece : Piece} {table : KeywordTable} {line other : Int}
    {character : Char} {position : Position} :
    piece.read table line ≠ .failed (.illegalCharacter character other position) := by
  intro read
  obtain ⟨_, _, _, _, same⟩ := eq_of_read_failed read
  unfold failure at same
  split at same <;> cases same

/-- A scan that reports an illegal character has got to it with the tokens found before, and no rule
takes anything there. -/
theorem Scanner.exists_reaches_of_illegal {scanner : Scanner} {source : Text} {character : Char}
    {line : Int} {position : Position}
    (failed : scanner.scan source = .error (.illegalCharacter character line position)) :
    ∃ mark rest, mark.scalar = character ∧
      scanner.Reaches (.start source) (scanner.scanUntilFailure source).1
        ⟨mark :: rest, position, line⟩ ∧
      scanner.registry.split? (mark :: rest) = none := by
  obtain ⟨cursor, walk, _, ends⟩ := (scanner.scans source).exists_reaches
  rw [lastError?_of_scanUntilFailure (scan_eq_error_iff.mp failed)] at ends
  cases ends with
  | @illegal mark rest _ _ stuck => exact ⟨mark, rest, rfl, walk, stuck⟩
  | failed _ read => exact absurd read Piece.read_ne_illegal

/-- A scan reports an illegal character at a cursor that it gets to exactly when no rule takes
anything there, and then it is the first one left. -/
theorem Scanner.Reaches.illegal_iff {scanner : Scanner} {source : Text} {tokens : List Token}
    {cursor : Cursor} (walk : scanner.Reaches (.start source) tokens cursor) {character : Char} :
    scanner.scan source =
        .error (.illegalCharacter character cursor.line cursor.position) ↔
      cursor.rest.head?.map Character.scalar = some character ∧
        scanner.registry.split? cursor.rest = none := by
  constructor
  · intro failed
    obtain ⟨mark, rest, rfl, whole, stuck⟩ := exists_reaches_of_illegal failed
    -- The walk to the error and the one at hand stand at one place, so one text is left.
    have left : cursor.rest = mark :: rest :=
      walk.drop_offset.2.symm.trans whole.drop_offset.2
    rw [left]
    exact ⟨rfl, stuck⟩
  · rintro ⟨first, stuck⟩
    rw [scan_eq_error_iff]
    obtain ⟨later, _, remaining⟩ := (scanner.scans source).after walk
    obtain ⟨rest, position, line⟩ := cursor
    cases rest with
    | nil => contradiction
    | cons found others =>
      obtain rfl := Option.some.inj first
      rw [scanUntilFailure_snd, (remaining.unique (.illegal position line stuck)).2.2]
      rfl

/-- What an illegal character says. Where a scan with accepted rules reports one, it is the first
character left, and every match that the pattern of a rule allows there is hidden by the rule itself
or by one that is tried before it: by a rule that is taken for a back-reference or allows an empty
match at this very place. Where no rule does either, no rule has a match. -/
theorem Scanner.illegal_hidden {table : Option KeywordTable} {rules : List Rule} {scanner : Scanner}
    (built : Scanner.build table rules = .ok scanner) {source : Text} {character : Char}
    {line : Int} {position : Position}
    (failed : scanner.scan source = .error (.illegalCharacter character line position)) :
    let left := Text.characters (source.drop position.offset.toNat)
    left.head?.map Character.scalar = some character ∧
    ∀ rule ∈ rules, ∀ size, rule.Admits left size →
      ∃ culprit ∈ rules, culprit.Hides left ∧ (culprit = rule ∨ culprit.TriedBefore rule) := by
  obtain ⟨accepted, _⟩ := exists_registry_of_built built
  obtain ⟨mark, rest, rfl, walk, stuck⟩ := exists_reaches_of_illegal failed
  obtain ⟨_, remaining⟩ := Reaches.drop_offset walk
  dsimp only at remaining ⊢
  rw [remaining]
  exact ⟨rfl, Registry.hidden_of_stuck accepted stuck⟩

/-- A rule for words. -/
def Rule.word : Rule where
  name := "WORD"
  kind := .operand .identifier
  pattern := "[a-z]+"
  order := 1

/-- A rule for the edges of words, which are between characters. -/
def Rule.edge : Rule where
  name := "EDGE"
  kind := .operand .identifier
  pattern := "\\b"

/-- A rule that skips newlines, given by their number. -/
def Rule.numberedNewline : Rule where
  name := "NEWLINE"
  pattern := "\\012"
  suppress := true

/-- The pattern of a word is one small letter or more. -/
theorem Rule.parse_word :
    Pattern.parse Rule.word.pattern =
      .ok (.plus (.oneOf (.range 'a'.toNat 'z'.toNat)) true) := by rfl

/-- At the mark after a word, the rule for words has no match. -/
theorem Scanner.illegal_hidden_mark :
    ∃ scanner, Scanner.build (some .empty) [Rule.word] = .ok scanner ∧
      scanner.scan ("ab?" : String) = .error (.illegalCharacter '?' 1 ⟨1, 3, 2⟩) ∧
      ∀ size, ¬Rule.word.Admits (Text.characters ((Text.ofString "ab?").drop 2)) size := by
  have observed : (Scanner.build (some .empty) [Rule.word]).map (·.scan ("ab?" : String)) =
      .ok (.error (.illegalCharacter '?' 1 ⟨1, 3, 2⟩)) := by rfl
  obtain ⟨scanner, built, failed⟩ := exists_built_of_map observed
  refine ⟨scanner, built, failed, fun size admits => ?_⟩
  obtain ⟨_, hidden⟩ := illegal_hidden built failed
  obtain ⟨culprit, listed, ⟨_, hides⟩, _⟩ := hidden Rule.word (by simp) size admits
  obtain rfl := List.mem_singleton.mp listed
  obtain reference | empty := hides
  · exact absurd reference (by decide)
  · obtain ⟨taken, rest, _, none, accepts⟩ := empty
    have matched := (Lexis.accepts_of_parse rfl Rule.parse_word).mp accepts
    obtain ⟨present, _⟩ := (Pattern.Matches.plus_run_iff Pattern.Matches.oneOf_iff).mp matched
    exact present (List.length_eq_zero_iff.mp none.symm)

/-- Two rules that are accepted although they can hide matches. An edge of a word takes nothing and
hides the word after it; a newline given by its number is taken for a back-reference and hides
itself. -/
theorem Scanner.accepted_hides :
    (∃ scanner, Scanner.build (some .empty) [Rule.edge, Rule.word] = .ok scanner ∧
      scanner.scan ("a" : String) = .error (.illegalCharacter 'a' 1 .start) ∧
      Rule.word.Admits (Text.characters ("a" : String)) 1) ∧
    ∃ scanner, Scanner.build (some .empty) [Rule.numberedNewline] = .ok scanner ∧
      scanner.scan ("\n" : String) = .error (.illegalCharacter '\n' 1 .start) ∧
      Rule.numberedNewline.Admits (Text.characters ("\n" : String)) 1 := by
  have edged : (Scanner.build (some .empty) [Rule.edge, Rule.word]).map (·.scan ("a" : String)) =
      .ok (.error (.illegalCharacter 'a' 1 .start)) := by rfl
  have numbered : (Scanner.build (some .empty) [Rule.numberedNewline]).map
      (·.scan ("\n" : String)) = .ok (.error (.illegalCharacter '\n' 1 .start)) := by rfl
  obtain ⟨scanner, built, failed⟩ := exists_built_of_map edged
  obtain ⟨other, accepted, missed⟩ := exists_built_of_map numbered
  refine ⟨⟨scanner, built, failed, ?_⟩, other, accepted, missed, ?_⟩
  · refine ⟨Text.characters ("a" : String), [], rfl, rfl,
      (Lexis.accepts_of_parse rfl Rule.parse_word).mpr ?_⟩
    exact (Pattern.Matches.plus_run_iff Pattern.Matches.oneOf_iff).mpr ⟨by decide, by decide⟩
  · have parsed : Pattern.parse Rule.numberedNewline.pattern = .ok (.literal '\n'.toNat false) := by
      rfl
    exact ⟨Text.characters ("\n" : String), [], rfl, rfl,
      (Lexis.accepts_of_parse rfl parsed).mpr (.literal (by decide))⟩

end Aml
