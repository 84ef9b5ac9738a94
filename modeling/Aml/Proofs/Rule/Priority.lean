import Mathlib
import Aml.Proofs.Rule.Acceptance
import Aml.Rule.Default

/-!
# The order of trial does not depend on the listing

Rules are checked one by one against the rules before them, and put in order by insertion. Neither
depends on how the rules are listed. The checks come down to what each rule is by itself and to
names and orders that are `Apart` pair by pair (`Rule.checkAll_iff`). On rules that are apart,
`Rule.TriedBefore` is a strict order in which any two rules compare, so only one arrangement of the
rules is in order (`Rule.inOrder_eq_of_perm`).
-/
namespace Aml

namespace Rule

/-! ## The checks -/

/-- Two rules that may stand in one list: their names differ, and so do their tiers or orders. -/
structure Apart (one other : Rule) : Prop where
  name : one.name ≠ other.name
  place : one.tier = other.tier → one.order ≠ other.order

/-- Rules are apart from each other in both directions. -/
theorem Apart.symm {one other : Rule} (apart : one.Apart other) : other.Apart one :=
  ⟨apart.name.symm, fun same => (apart.place same.symm).symm⟩

/-- A rule that passes its check is of a declared tier. -/
theorem tier_of_check {rule : Rule} {earlier : List Rule} (passed : rule.check earlier = .ok ()) :
    rule.tier = .content ∨ rule.tier = .simple := by
  obtain ⟨_, ⟨content, _⟩ | ⟨simple, _⟩⟩ := check_cases passed
  · exact .inl content
  · exact .inr simple

/-- A rule passes its check exactly when it passes by itself and is apart from the rules before
it. -/
theorem check_iff {rule : Rule} {earlier : List Rule} :
    rule.check earlier = .ok () ↔
      rule.check [] = .ok () ∧ ∀ other ∈ earlier, other.Apart rule := by
  by_cases unnamed : rule.name = []
  · simp [check, unnamed]
  by_cases repeated : earlier.any (fun other => other.name = rule.name)
  · have clash : ¬∀ other ∈ earlier, other.Apart rule := by
      obtain ⟨other, member, same⟩ := List.any_eq_true.mp repeated
      exact fun apart => (apart other member).name (of_decide_eq_true same)
    simp [check, unnamed, repeated, clash]
  have fresh : ∀ other ∈ earlier, other.name ≠ rule.name := by simpa using repeated
  cases shared : earlier.find?
      (fun other => other.tier = rule.tier && other.order = rule.order) with
  | some other =>
    have clash : ¬∀ other ∈ earlier, other.Apart rule := by
      intro apart
      have member := List.mem_of_find?_eq_some shared
      have same : other.tier = rule.tier ∧ other.order = rule.order := by
        simpa using List.find?_some shared
      exact (apart other member).place same.1 same.2
    cases tier : rule.tier with
    | undeclared index =>
      have refused (before : List Rule) : rule.check before ≠ .ok () := by
        intro passed
        obtain content | simple := tier_of_check passed <;> simp_all
      exact iff_of_false (refused earlier) fun passed => refused [] passed.1
    | content | simple =>
      rw [tier] at shared
      simp [check, unnamed, repeated, tier, shared, clash]
  | none =>
    have apart : ∀ other ∈ earlier, other.Apart rule := by
      have free : ∀ other ∈ earlier, other.tier = rule.tier → other.order ≠ rule.order := by
        simpa using List.find?_eq_none.mp shared
      exact fun other member => ⟨fresh other member, free other member⟩
    have alone : rule.check earlier = rule.check [] := by
      rw [check, check, if_neg unnamed, if_neg unnamed, if_neg repeated, shared]
      rfl
    rw [alone, and_iff_left apart]

/-- The rules of a list pass their checks exactly when each passes by itself and all are apart, from
each other and from the rules before the list. -/
theorem checkAll_iff {rules earlier : List Rule} :
    checkAll rules earlier = .ok () ↔
      (∀ rule ∈ rules, rule.check [] = .ok ()) ∧ rules.Pairwise Apart ∧
        ∀ rule ∈ rules, ∀ other ∈ earlier, other.Apart rule := by
  induction rules generalizing earlier with
  | nil => simp [checkAll]
  | cons rule rest ih =>
    have step : checkAll (rule :: rest) earlier = .ok () ↔
        rule.check earlier = .ok () ∧ checkAll rest (rule :: earlier) = .ok () := by
      rw [checkAll]
      cases rule.check earlier <;> simp
    rw [step, ih, check_iff]
    simp only [List.forall_mem_cons, List.pairwise_cons]
    constructor
    · rintro ⟨⟨alone, apart⟩, others, distinct, across⟩
      exact ⟨⟨alone, others⟩, ⟨fun other member => (across other member).1, distinct⟩, apart,
        fun other member => (across other member).2⟩
    · rintro ⟨⟨alone, others⟩, ⟨first, distinct⟩, apart, across⟩
      exact ⟨⟨alone, apart⟩, others, distinct, fun other member =>
        ⟨first other member, across other member⟩⟩

/-- Whether a list passes its checks does not depend on how its rules are listed. -/
theorem checkAll_perm {rules others : List Rule} (shuffled : rules.Perm others) :
    checkAll rules [] = .ok () ↔ checkAll others [] = .ok () := by
  have distinct : rules.Pairwise Apart ↔ others.Pairwise Apart :=
    shuffled.pairwise_iff Apart.symm
  rw [checkAll_iff, checkAll_iff, distinct]
  simp only [shuffled.mem_iff]

/-! ## The order of trial -/

/-- A rule is tried before another one: content rules before simple ones and by their order, simple
rules by decreasing length of their text and then by their order. -/
inductive TriedBefore (left right : Rule) : Prop where
  | tier (content : left.tier = .content) (simple : right.tier = .simple)
  | content (one : left.tier = .content) (other : right.tier = .content)
      (ordered : left.order < right.order)
  | longer (one : left.tier = .simple) (other : right.tier = .simple)
      (longer : right.pattern.length < left.pattern.length)
  | simple (one : left.tier = .simple) (other : right.tier = .simple)
      (even : left.pattern.length = right.pattern.length) (ordered : left.order < right.order)

/-- What is tried before an earlier rule is tried before a later one. -/
theorem TriedBefore.trans {left middle right : Rule} (first : left.TriedBefore middle)
    (second : middle.TriedBefore right) : left.TriedBefore right := by
  cases first with
  | tier content simple =>
    cases second with
    | tier other _ | content other _ _ =>
      rw [simple] at other
      contradiction
    | longer _ other _ | simple _ other _ _ => exact .tier content other
  | content one other ordered =>
    cases second with
    | tier _ simple => exact .tier one simple
    | content _ last later => exact .content one last (by omega)
    | longer middle _ _ | simple middle _ _ _ =>
      rw [other] at middle
      contradiction
  | longer one other longer =>
    cases second with
    | tier middle _ | content middle _ _ =>
      rw [other] at middle
      contradiction
    | longer _ last more => exact .longer one last (by omega)
    | simple _ last even _ => exact .longer one last (by omega)
  | simple one other even ordered =>
    cases second with
    | tier middle _ | content middle _ _ =>
      rw [other] at middle
      contradiction
    | longer _ last more => exact .longer one last (by omega)
    | simple _ last same later => exact .simple one last (by omega) (by omega)

/-- No rule is tried before itself. -/
theorem TriedBefore.irrefl (rule : Rule) : ¬rule.TriedBefore rule := by
  intro before
  cases before with
  | tier content simple =>
    rw [content] at simple
    contradiction
  | content _ _ less | longer _ _ less | simple _ _ _ less => omega

/-- Of two rules at most one is tried before the other. -/
theorem TriedBefore.asymm {left right : Rule} (before : left.TriedBefore right) :
    ¬right.TriedBefore left :=
  fun after => irrefl left (before.trans after)

section Order

variable {left right : Rule} (one : left.tier = .content ∨ left.tier = .simple)
  (other : right.tier = .content ∨ right.tier = .simple)

include one other

/-- On rules of declared tiers the comparison decides the order of trial. -/
theorem precedes_iff : left.precedes right = true ↔ left.TriedBefore right := by
  unfold precedes
  obtain first | first := one <;> obtain second | second := other
  · simp only [first, second, ne_eq, not_true_eq_false, if_false, reduceCtorEq, false_and,
      decide_eq_true_eq]
    exact ⟨fun ordered => .content first second ordered, fun before => by cases before <;> simp_all⟩
  · rw [first, second, if_pos (by decide)]
    exact ⟨fun _ => .tier first second, fun _ => by decide⟩
  · rw [first, second, if_pos (by decide)]
    exact ⟨fun wrong => absurd wrong (by decide), fun before => by cases before <;> simp_all⟩
  · simp only [first, second, ne_eq, not_true_eq_false, if_false, true_and]
    split
    · rename_i uneven
      rw [decide_eq_true_eq]
      exact ⟨fun more => .longer first second more, fun before => by cases before <;> simp_all⟩
    · rename_i even
      have even : left.pattern.length = right.pattern.length := by omega
      rw [decide_eq_true_eq]
      refine ⟨fun ordered => .simple first second even ordered, fun before => ?_⟩
      cases before with
      | tier content _ | content content _ _ =>
        rw [first] at content
        contradiction
      | longer _ _ more => omega
      | simple _ _ _ ordered => exact ordered

/-- Of two rules that are apart one is tried before the other. -/
theorem triedBefore_total (apart : left.Apart right) :
    left.TriedBefore right ∨ right.TriedBefore left := by
  obtain first | first := one <;> obtain second | second := other
  · have uneven := apart.place (first.trans second.symm)
    obtain less | more := Int.lt_or_gt_of_ne uneven
    · exact .inl (.content first second less)
    · exact .inr (.content second first more)
  · exact .inl (.tier first second)
  · exact .inr (.tier second first)
  · have uneven := apart.place (first.trans second.symm)
    obtain shorter | even | longer := Nat.lt_trichotomy left.pattern.length right.pattern.length
    · exact .inr (.longer second first shorter)
    · obtain less | more := Int.lt_or_gt_of_ne uneven
      · exact .inl (.simple first second even less)
      · exact .inr (.simple second first even.symm more)
    · exact .inl (.longer first second longer)

end Order

/-- Rules of declared tiers that are apart from each other. -/
structure Comparable (rules : List Rule) : Prop where
  tiers : ∀ rule ∈ rules, rule.tier = .content ∨ rule.tier = .simple
  apart : rules.Pairwise Apart

/-- Rules that pass their checks can be compared. -/
theorem comparable_of_checkAll {rules : List Rule} (passed : checkAll rules [] = .ok ()) :
    Comparable rules := by
  obtain ⟨alone, apart, _⟩ := checkAll_iff.mp passed
  exact ⟨fun rule member => tier_of_check (alone rule member), apart⟩

/-- Rules can be compared however they are listed. -/
theorem Comparable.perm {rules others : List Rule} (comparable : Comparable rules)
    (shuffled : rules.Perm others) : Comparable others :=
  ⟨fun rule member => comparable.tiers rule (shuffled.mem_iff.mpr member),
    (shuffled.pairwise_iff Apart.symm).mp comparable.apart⟩

/-- A rule put in its place leaves the rules in order. -/
theorem insert_pairwise {rule : Rule} {rules : List Rule} (comparable : Comparable (rule :: rules))
    (ordered : rules.Pairwise TriedBefore) : (insert rule rules).Pairwise TriedBefore := by
  induction rules with
  | nil => exact List.pairwise_singleton _ _
  | cons first rest ih =>
    obtain ⟨tiers, distinct⟩ := comparable
    obtain ⟨declared, known, others⟩ : (rule.tier = .content ∨ rule.tier = .simple) ∧
        (first.tier = .content ∨ first.tier = .simple) ∧
        ∀ other ∈ rest, other.tier = .content ∨ other.tier = .simple := by
      simpa only [List.forall_mem_cons] using tiers
    obtain ⟨apart, among⟩ := List.pairwise_cons.mp distinct
    obtain ⟨behind, sorted⟩ := List.pairwise_cons.mp ordered
    rw [insert]
    split
    · rename_i earlier
      have before := (precedes_iff declared known).mp earlier
      refine List.pairwise_cons.mpr ⟨?_, ordered⟩
      exact List.forall_mem_cons.mpr
        ⟨before, fun other member => before.trans (behind other member)⟩
    · rename_i later
      have after : first.TriedBefore rule := by
        obtain before | after := triedBefore_total declared known (apart first List.mem_cons_self)
        · exact absurd ((precedes_iff declared known).mpr before) later
        · exact after
      have remaining : Comparable (rule :: rest) := by
        refine ⟨List.forall_mem_cons.mpr ⟨declared, others⟩, List.pairwise_cons.mpr ⟨?_, ?_⟩⟩
        · exact fun other member => apart other (List.mem_cons_of_mem _ member)
        · exact (List.pairwise_cons.mp among).2
      refine List.pairwise_cons.mpr ⟨fun other member => ?_, ih remaining sorted⟩
      obtain rfl | listed := List.mem_cons.mp ((insert_perm rule rest).mem_iff.mp member)
      · exact after
      · exact behind other listed

/-- Rules that can be compared are put in order. -/
theorem inOrder_pairwise {rules : List Rule} (comparable : Comparable rules) :
    (inOrder rules).Pairwise TriedBefore := by
  have sorted (ordered : List Rule) (together : Comparable (rules ++ ordered))
      (before : ordered.Pairwise TriedBefore) :
      (rules.foldl (fun ordered rule => insert rule ordered) ordered).Pairwise TriedBefore := by
    induction rules generalizing ordered with
    | nil => exact before
    | cons rule rest ih =>
      have moved : (rule :: rest ++ ordered).Perm (rest ++ insert rule ordered) :=
        List.perm_middle.symm.trans ((insert_perm rule ordered).symm.append_left rest)
      have pair : Comparable (rule :: ordered) := by
        have nearby := together.perm List.perm_middle.symm
        exact ⟨(List.forall_mem_append.mp nearby.tiers).2,
          (List.pairwise_append.mp nearby.apart).2.1⟩
      have others : Comparable rest := by
        obtain ⟨tiers, apart⟩ := comparable
        exact ⟨(List.forall_mem_cons.mp tiers).2, (List.pairwise_cons.mp apart).2⟩
      exact ih others (insert rule ordered) (together.perm moved) (insert_pairwise pair before)
  exact sorted [] (by rwa [List.append_nil]) .nil

/-- The order of trial of rules that can be compared does not depend on how they are listed. -/
theorem inOrder_eq_of_perm {rules others : List Rule} (comparable : Comparable rules)
    (shuffled : rules.Perm others) : inOrder rules = inOrder others := by
  have same : (inOrder rules).Perm (inOrder others) :=
    (inOrder_perm rules).trans (shuffled.trans (inOrder_perm others).symm)
  refine same.eq_of_pairwise ?_ (inOrder_pairwise comparable)
    (inOrder_pairwise (comparable.perm shuffled))
  intro left right _ _ before after
  exact absurd after before.asymm

end Rule

/-! ## Registries -/

namespace Registry

/-- Rules that make a registry make the same one however they are listed. -/
theorem ofRules_of_perm {rules others : List Rule} (shuffled : rules.Perm others)
    {registry : Registry} (built : ofRules rules = .ok registry) :
    ofRules others = .ok registry := by
  obtain ⟨present, passed, made⟩ := ofRules_eq_ok_iff.mp built
  refine ofRules_eq_ok_iff.mpr ⟨?_, (Rule.checkAll_perm shuffled).mp passed, ?_⟩
  · rintro rfl
    exact present shuffled.eq_nil
  · rwa [← Rule.inOrder_eq_of_perm (Rule.comparable_of_checkAll passed) shuffled]

/-- The rules of a registry stand in the order of trial. -/
theorem pairwise_triedBefore {rules : List Rule} {registry : Registry}
    (built : ofRules rules = .ok registry) :
    (registry.rules.map CheckedRule.rule).Pairwise Rule.TriedBefore := by
  obtain ⟨_, passed, made⟩ := ofRules_eq_ok_iff.mp built
  rw [Rule.map_withMatchers made]
  exact Rule.inOrder_pairwise (Rule.comparable_of_checkAll passed)

/-- The rules of a registry are those that it was built from. -/
theorem map_rule_perm {rules : List Rule} {registry : Registry}
    (built : ofRules rules = .ok registry) :
    (registry.rules.map CheckedRule.rule).Perm rules := by
  obtain ⟨_, _, made⟩ := ofRules_eq_ok_iff.mp built
  rw [Rule.map_withMatchers made]
  exact Rule.inOrder_perm rules

/-- Priority does not depend on how rules are listed. A list of rules and any permutation of it are
both accepted or both refused. When they are accepted they make the same registry, whose rules are
those of the list, each tried before the ones after it, and the scanners they make with a keyword
table give the same tokens, errors and streams for every source. -/
theorem listing_unseen {rules others : List Rule} (shuffled : rules.Perm others) :
    ((∃ registry, ofRules rules = .ok registry) ↔ ∃ registry, ofRules others = .ok registry) ∧
    ∀ registry, ofRules rules = .ok registry →
      ofRules others = .ok registry ∧
      (registry.rules.map CheckedRule.rule).Perm rules ∧
      (registry.rules.map CheckedRule.rule).Pairwise Rule.TriedBefore ∧
      ∀ table, ∃ one other, Scanner.build (some table) rules = .ok one ∧
        Scanner.build (some table) others = .ok other ∧
        ∀ source, one.scan source = other.scan source ∧
          one.stream source = other.stream source := by
  constructor
  · constructor
    · rintro ⟨registry, built⟩
      exact ⟨registry, ofRules_of_perm shuffled built⟩
    · rintro ⟨registry, built⟩
      exact ⟨registry, ofRules_of_perm shuffled.symm built⟩
  · intro registry built
    have rebuilt := ofRules_of_perm shuffled built
    refine ⟨rebuilt, map_rule_perm built, pairwise_triedBefore built, fun table => ?_⟩
    refine ⟨⟨registry, table⟩, ⟨registry, table⟩, ?_, ?_, fun source => ⟨rfl, rfl⟩⟩
    · rw [Scanner.build, built]
    · rw [Scanner.build, rebuilt]

/-- Reals are tried before integers even when they are listed after them. -/
theorem listing_unseen_numerals :
    [Rule.integerNumeral, Rule.realNumeral].Perm [Rule.realNumeral, Rule.integerNumeral] ∧
      ∃ registry, ofRules [Rule.integerNumeral, Rule.realNumeral] = .ok registry ∧
        registry.rules.map CheckedRule.rule = [Rule.realNumeral, Rule.integerNumeral] ∧
        ofRules [Rule.realNumeral, Rule.integerNumeral] = .ok registry := by
  have swapped : [Rule.integerNumeral, Rule.realNumeral].Perm
      [Rule.realNumeral, Rule.integerNumeral] := .swap _ _ _
  have listed : (ofRules [Rule.integerNumeral, Rule.realNumeral]).map
      (·.rules.map CheckedRule.rule) = .ok [Rule.realNumeral, Rule.integerNumeral] := by rfl
  cases built : ofRules [Rule.integerNumeral, Rule.realNumeral] with
  | error fault =>
    rw [built] at listed
    contradiction
  | ok registry =>
    rw [built] at listed
    exact ⟨swapped, registry, rfl, Except.ok.inj listed,
      ((listing_unseen swapped).2 registry built).1⟩

end Registry

end Aml
