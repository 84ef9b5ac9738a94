import Mathlib
import Aml.Proofs.Pattern.Anchored
import Aml.Proofs.Rule.Priority
import Aml.Proofs.Scan.LongestMatch

/-!
# Matchers are faithful to their rules

A rule is checked by its pattern alone and tried by a matcher that reads the pattern again, as a
group behind an anchor. For accepted rules the two agree on every text: what a trial gives says what
the pattern allows there (`Registry.answers_of_mem`), except that a pattern taken for a
back-reference is refused without being tried. A match of a trial need not be the longest one that
the pattern allows, nor need it take any characters.
-/
namespace Aml

namespace Rule

/-- What a trial of a rule says about the matches that its pattern allows. -/
inductive Answers (rule : Rule) (characters : List Character) : Trial → Prop where
  | matched {length : Nat} (admits : rule.Admits characters length) :
      Answers rule characters (.matched length)
  | missed (nothing : ∀ size, ¬rule.Admits characters size) : Answers rule characters .missed
  | refused (content : rule.tier = .content) (reference : isReference rule.pattern = true) :
      Answers rule characters .refused

variable {rule : Rule} {characters : List Character}

/-! ## Content rules -/

/-- The pattern of a content rule that passes its check can be read. -/
theorem parse_of_checkContent (passed : rule.checkContent = .ok ()) :
    ∃ pattern, Pattern.parse rule.pattern = .ok pattern := by
  unfold checkContent at passed
  split at passed
  · contradiction
  · exact ⟨_, ‹_›⟩

/-- A content rule allows what its pattern matches. -/
theorem admits_iff_of_parse (content : rule.tier = .content) {pattern : Pattern}
    (parsed : Pattern.parse rule.pattern = .ok pattern) {length : Nat} :
    rule.Admits characters length ↔
      ∃ taken rest, characters = taken ++ rest ∧ length = taken.length ∧
        pattern.Matches none taken rest := by
  simp only [Admits, Lexis.accepts_of_parse content parsed]

/-- The matcher of a content rule is faithful to its pattern. -/
theorem answers_contentMatcher {matcher : Matcher} (content : rule.tier = .content)
    {pattern : Pattern} (parsed : Pattern.parse rule.pattern = .ok pattern)
    (made : contentMatcher rule.pattern = .ok matcher) :
    rule.Answers characters (matcher.attempt characters) := by
  unfold contentMatcher at made
  split at made
  · obtain rfl := Except.ok.inj made
    exact .refused content ‹_›
  · split at made
    · rename_i anchored closed
      obtain rfl := Except.ok.inj made
      have counted := Pattern.wellCounted_of_parse closed
      have same {taken rest : List Character} := @Pattern.matches_anchored_iff _ _ _ parsed closed
        taken rest
      unfold Matcher.attempt
      dsimp only
      split
      · rename_i length found
        refine .matched ((admits_iff_of_parse content parsed).mpr ?_)
        refine ⟨_, _, (List.take_append_drop length characters).symm, ?_,
          same.mp (Pattern.matches_of_match?_compile counted found)⟩
        exact (List.length_take_of_le (Program.match?_le found)).symm
      · rename_i none
        refine .missed fun size admits => ?_
        obtain ⟨taken, rest, whole, _, matched⟩ := (admits_iff_of_parse content parsed).mp admits
        exact (Pattern.match?_compile_eq_none_iff counted).mp none taken rest whole
          (same.mpr matched)
    · contradiction

/-! ## Simple rules -/

/-- A simple rule allows its text and nothing else. -/
theorem admits_iff_of_simple (simple : rule.tier = .simple) {length : Nat} :
    rule.Admits characters length ↔
      startsWith (rule.pattern.characters.map Character.scalar) characters = true ∧
        length = rule.pattern.characters.length := by
  rw [Lexis.startsWith_iff]
  simp only [Admits, Accepts, simple]
  constructor
  · rintro ⟨taken, rest, rfl, rfl, same⟩
    rw [← same, List.map_append]
    exact ⟨List.prefix_append _ _, by simpa using congrArg List.length same⟩
  · rintro ⟨⟨others, whole⟩, rfl⟩
    obtain ⟨taken, rest, rfl, same, _⟩ := List.map_eq_append_iff.mp whole.symm
    exact ⟨taken, rest, rfl, by simpa using (congrArg List.length same).symm, same⟩

/-- The matcher of a simple rule is faithful to its text. -/
theorem answers_simpleMatcher {matcher : Matcher} (simple : rule.tier = .simple)
    (made : simpleMatcher rule.pattern = .ok matcher) :
    rule.Answers characters (matcher.attempt characters) := by
  unfold simpleMatcher at made
  split at made
  · contradiction
  · obtain rfl := Except.ok.inj made
    unfold Matcher.attempt
    dsimp only
    split
    · rename_i starts
      exact .matched ((admits_iff_of_simple simple).mpr ⟨starts, List.length_map _⟩)
    · rename_i other
      exact .missed fun size admits => other ((admits_iff_of_simple simple).mp admits).1

/-- A simple rule that passes its check allows no empty match. -/
theorem not_admits_zero_of_simple {earlier : List Rule} (passed : rule.check earlier = .ok ())
    (simple : rule.tier = .simple) : ¬rule.Admits characters 0 := by
  intro admits
  have empty := ((admits_iff_of_simple simple).mp admits).2
  have spelled := Text.ofCharacters_characters rule.pattern
  rw [List.length_eq_zero_iff.mp empty.symm] at spelled
  exact (check_cases passed).1 spelled.symm

/-- Every rule is given its own matcher. -/
theorem matcher_of_withMatchers {place : Nat} {rules : List Rule} {checked : List CheckedRule}
    (made : withMatchers place rules = .ok checked) :
    ∀ given ∈ checked, given.rule.matcher = .ok given.matcher := by
  induction rules generalizing place checked with
  | nil =>
    obtain rfl := Except.ok.inj made
    exact List.forall_mem_nil _
  | cons rule rest ih =>
    rw [withMatchers] at made
    split at made
    · contradiction
    · rename_i matcher own
      split at made
      · contradiction
      · rename_i others later
        obtain rfl := Except.ok.inj made
        exact List.forall_mem_cons.mpr ⟨own, ih later⟩

end Rule

namespace Registry

/-- What a trial of an accepted rule gives says what the pattern of the rule allows. -/
theorem answers_of_mem {rules : List Rule} {registry : Registry}
    (built : ofRules rules = .ok registry) (characters : List Character) :
    ∀ checked ∈ registry.rules,
      checked.rule.Answers characters (checked.matcher.attempt characters) := by
  intro checked member
  obtain ⟨_, _, given⟩ := ofRules_eq_ok_iff.mp built
  obtain ⟨_, earlier, passed⟩ := checked_of_mem built checked member
  have made := Rule.matcher_of_withMatchers given checked member
  unfold Rule.matcher at made
  obtain ⟨_, ⟨content, readable⟩ | ⟨simple, _⟩⟩ := Rule.check_cases passed
  · rw [content] at made
    obtain ⟨pattern, parsed⟩ := Rule.parse_of_checkContent readable
    exact Rule.answers_contentMatcher content parsed made
  · rw [simple] at made
    exact Rule.answers_simpleMatcher simple made

end Registry

end Aml
