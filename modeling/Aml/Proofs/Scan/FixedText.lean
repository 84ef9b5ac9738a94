import Mathlib
import Aml.Proofs.Scan.Illegal
import Aml.Proofs.Text.Utf8

/-!
# Fixed texts are read longest first

When all rules are simple, a scan compares the characters left with fixed texts only. Of the texts
that start them it takes the longest (`Registry.split?_iff_isLongestStart`): rules are tried by
decreasing length of their texts in bytes, and of two texts that start the same characters the
shorter one starts the longer one, so that the order of their lengths is the same in characters.
What a match of a simple rule becomes does not depend on its text, so the scan goes on past every
match and stops only where no text starts what is left (`Scanner.fixed_texts_longest`).
-/
namespace Aml

namespace Rule

/-- The text of a rule starts the characters, compared by their values. -/
def Starts (rule : Rule) (characters : List Character) : Prop :=
  rule.pattern.characters.map Character.scalar <+: characters.map Character.scalar

instance (rule : Rule) (characters : List Character) : Decidable (rule.Starts characters) :=
  inferInstanceAs (Decidable (_ <+: _))

/-- The longest among the texts of rules that start the characters, in characters and in bytes; of
rules with one text the one of least order. -/
structure IsLongestStart (rules : List Rule) (characters : List Character) (rule : Rule) :
    Prop where
  /-- The rule is one of the rules. -/
  listed : rule ∈ rules
  /-- Its text starts the characters. -/
  starts : rule.Starts characters
  /-- No text that starts the characters is longer. -/
  longest : ∀ other ∈ rules, other.Starts characters →
    other.pattern.width ≤ rule.pattern.width ∧ other.pattern.length ≤ rule.pattern.length
  /-- No rule with the same text comes before it. -/
  first : ∀ other ∈ rules, other.pattern = rule.pattern → rule.order ≤ other.order

/-! ## What the checks guarantee -/

/-- What the check of a simple rule guarantees: it makes operators without a value. -/
structure MakesOperators (rule : Rule) : Prop where
  operator : ∃ operator, rule.kind = .operator operator
  kept : rule.suppress = false
  plain : rule.converter = none

/-- A simple rule that passes its check makes operators. -/
theorem makesOperators_of_checkSimple {rule : Rule} (passed : rule.checkSimple = .ok ()) :
    rule.MakesOperators := by
  unfold checkSimple at passed
  split at passed
  · contradiction
  · rename_i operator
    split at passed
    · contradiction
    · rename_i plain
      rw [Bool.or_eq_true, not_or, Bool.not_eq_true, Bool.not_eq_true,
        Option.isSome_eq_false_iff, Option.isNone_iff_eq_none] at plain
      refine ⟨?_, plain.1, plain.2⟩
      cases kind : rule.kind with
      | operator operator => exact ⟨operator, rfl⟩
      | reserved | operand | undeclared => simp [kind, Kind.isOperator] at operator

/-- The text of a simple rule that has a matcher is well-formed. -/
theorem isUtf8_of_simpleMatcher {pattern : Text} {matcher : Matcher}
    (made : simpleMatcher pattern = .ok matcher) : pattern.isUtf8 = true := by
  unfold simpleMatcher at made
  split at made
  · contradiction
  · exact Text.isUtf8_of_malformedSuffix? ‹_›

/-- Of two well-formed texts that start the same characters, one with no more bytes starts the
other. -/
theorem Starts.characters_prefix {one other : Rule} {characters : List Character}
    (starts : one.Starts characters) (also : other.Starts characters)
    (formed : one.pattern.isUtf8 = true) (known : other.pattern.isUtf8 = true)
    (shorter : one.pattern.length ≤ other.pattern.length) :
    one.pattern.characters <+: other.pattern.characters := by
  obtain before | after := List.prefix_or_prefix_of_prefix starts also
  · exact Text.characters_prefix formed known before
  · have inside := Text.characters_prefix known formed after
    have same := (Text.prefix_of_characters inside).eq_of_length_le shorter
    rw [same]

end Rule

/-! ## The rule that is chosen -/

namespace Registry

/-- Simple rules are chosen in the order in which they stand, by their texts. -/
theorem choose_of_simple {rules : List CheckedRule} {characters : List Character}
    (simple : ∀ checked ∈ rules, checked.rule.tier = .simple)
    (faithful : ∀ checked ∈ rules,
      checked.rule.Answers characters (checked.matcher.attempt characters)) :
    choose rules characters =
      ((rules.map CheckedRule.rule).find? (·.Starts characters)).map fun rule =>
        (rule, rule.pattern.width) := by
  induction rules with
  | nil => rfl
  | cons checked rest ih =>
    obtain ⟨fixed, alike⟩ := List.forall_mem_cons.mp simple
    obtain ⟨answer, others⟩ := List.forall_mem_cons.mp faithful
    rw [choose, List.map_cons, List.find?_cons]
    generalize checked.matcher.attempt characters = trial at answer
    cases answer with
    | matched admits =>
      obtain ⟨starts, sized⟩ := (Rule.admits_iff_of_simple fixed).mp admits
      have found : checked.rule.Starts characters := Lexis.startsWith_iff.mp starts
      simp only [found, decide_true, Option.map_some, sized, Text.width]
    | missed nothing =>
      have absent : ¬checked.rule.Starts characters := fun starts =>
        nothing _ ((Rule.admits_iff_of_simple fixed).mpr ⟨Lexis.startsWith_iff.mpr starts, rfl⟩)
      simp only [absent, decide_false]
      exact ih alike others
    | refused content =>
      rw [fixed] at content
      contradiction

variable {rules : List Rule} {registry : Registry} {characters taken rest : List Character}
  {rule : Rule} (built : ofRules rules = .ok registry)
  (simple : ∀ rule ∈ rules, rule.tier = .simple)

include built simple

/-- Accepted simple rules pass their own check. -/
theorem checkSimple_of_mem (listed : rule ∈ rules) :
    rule.pattern ≠ [] ∧ rule.checkSimple = .ok () := by
  obtain ⟨_, passed, _⟩ := ofRules_eq_ok_iff.mp built
  obtain ⟨_, sound⟩ := Rule.check_of_checkAll passed rule listed
  obtain ⟨present, ⟨content, _⟩ | ⟨_, alone⟩⟩ := Rule.check_cases sound
  · rw [simple rule listed] at content
    contradiction
  · exact ⟨present, alone⟩

/-- The texts of accepted simple rules are well-formed. -/
theorem isUtf8_of_mem (listed : rule ∈ rules) : rule.pattern.isUtf8 = true := by
  obtain ⟨_, _, made⟩ := ofRules_eq_ok_iff.mp built
  have fixed := simple rule listed
  rw [← (map_rule_perm built).mem_iff] at listed
  obtain ⟨given, member, rfl⟩ := List.mem_map.mp listed
  have own := Rule.matcher_of_withMatchers made given member
  rw [Rule.matcher, fixed] at own
  exact Rule.isUtf8_of_simpleMatcher own

/-- The first rule in the order of trial whose text starts the characters has the longest such
text. -/
theorem isLongestStart_of_find?
    (found : (registry.rules.map CheckedRule.rule).find? (·.Starts characters) = some rule) :
    rule.IsLongestStart rules characters := by
  obtain ⟨starts, earlier, later, whole, missed⟩ := List.find?_eq_some_iff_append.mp found
  have starts : rule.Starts characters := of_decide_eq_true starts
  have listed (other : Rule) :
      other ∈ earlier ∨ other = rule ∨ other ∈ later ↔ other ∈ rules := by
    rw [← (map_rule_perm built).mem_iff, whole, List.mem_append, List.mem_cons]
  have within (other : Rule) (member : other ∈ rules) (also : other.Starts characters) :
      other.pattern.length ≤ rule.pattern.length ∧
        (other.pattern.length = rule.pattern.length → rule.order ≤ other.order) := by
    obtain before | rfl | after := (listed other).mpr member
    · have absent := missed other before
      simp [also] at absent
    · exact ⟨Nat.le_refl _, fun _ => Int.le_refl _⟩
    · have ordered := pairwise_triedBefore built
      rw [whole] at ordered
      have tried := List.rel_of_pairwise_cons (List.pairwise_append.mp ordered).2.1 after
      cases tried with
      | tier content | content content =>
        rw [simple rule ((listed rule).mp (.inr (.inl rfl)))] at content
        contradiction
      | longer _ _ longer => exact ⟨longer.le, fun same => absurd same longer.ne⟩
      | simple _ _ even ordered => exact ⟨even.ge, fun _ => ordered.le⟩
  have member : rule ∈ rules := (listed rule).mp (.inr (.inl rfl))
  refine ⟨member, starts, fun other known also => ?_, fun other known same => ?_⟩
  · have shorter := (within other known also).1
    have inside := also.characters_prefix starts (isUtf8_of_mem built simple known)
      (isUtf8_of_mem built simple member) shorter
    exact ⟨inside.length_le, shorter⟩
  · have also : other.Starts characters := by
      rw [Rule.Starts, same]
      exact starts
    exact (within other known also).2 (by rw [same])

/-- There is only one longest text that starts the characters, and one rule of least order. -/
theorem isLongestStart_unique {other : Rule} (one : rule.IsLongestStart rules characters)
    (another : other.IsLongestStart rules characters) : rule = other := by
  have within := (another.longest rule one.listed one.starts).2
  have reverse := (one.longest other another.listed another.starts).2
  have inside := one.starts.characters_prefix another.starts (isUtf8_of_mem built simple one.listed)
    (isUtf8_of_mem built simple another.listed) within
  have same : rule.pattern = other.pattern :=
    (Text.prefix_of_characters inside).eq_of_length_le reverse
  have order : rule.order = other.order :=
    Int.le_antisymm (one.first other another.listed same.symm) (another.first rule one.listed same)
  obtain ⟨_, passed, _⟩ := ofRules_eq_ok_iff.mp built
  by_contra different
  have symmetric : Std.Symm Rule.Apart := ⟨fun _ _ => Rule.Apart.symm⟩
  have apart := (Rule.comparable_of_checkAll passed).apart.forall one.listed another.listed
    different
  have tiers : rule.tier = other.tier := by
    rw [simple rule one.listed, simple other another.listed]
  exact apart.place tiers order

/-- The first rule in the order of trial whose text starts the characters is the one with the
longest such text. -/
theorem find?_iff_isLongestStart :
    (registry.rules.map CheckedRule.rule).find? (·.Starts characters) = some rule ↔
      rule.IsLongestStart rules characters := by
  refine ⟨isLongestStart_of_find? built simple, fun longest => ?_⟩
  cases found : (registry.rules.map CheckedRule.rule).find? (·.Starts characters) with
  | none =>
    have missed := List.find?_eq_none.mp found rule
      ((map_rule_perm built).mem_iff.mpr longest.listed)
    simp [longest.starts] at missed
  | some other =>
    rw [isLongestStart_unique built simple longest (isLongestStart_of_find? built simple found)]

/-- Simple rules take the longest text that starts the characters. -/
theorem split?_iff_isLongestStart :
    registry.split? characters = some (rule, taken, rest) ↔
      rule.IsLongestStart rules characters ∧ characters = taken ++ rest ∧
        taken.map Character.scalar = rule.pattern.characters.map Character.scalar := by
  have declared (checked : CheckedRule) (member : checked ∈ registry.rules) :
      checked.rule.tier = .simple :=
    simple _ (checked_of_mem built checked member).1
  rw [split?_eq_some_iff, choose_of_simple declared (answers_of_mem built characters),
    Option.map_eq_some_iff]
  simp only [find?_iff_isLongestStart built simple, Prod.mk.injEq]
  constructor
  · rintro ⟨rfl, _, found, longest, rfl, sized⟩
    refine ⟨longest, rfl, ?_⟩
    have within : taken.map Character.scalar <+: (taken ++ rest).map Character.scalar :=
      (List.prefix_append taken rest).map Character.scalar
    have equal : (taken.map Character.scalar).length =
        (found.pattern.characters.map Character.scalar).length := by
      rw [List.length_map, List.length_map, ← sized, Text.width]
    exact (List.prefix_of_prefix_length_le within longest.starts equal.le).eq_of_length equal
  · rintro ⟨longest, rfl, same⟩
    have sized : rule.pattern.width = taken.length := by
      simpa [Text.width] using (congrArg List.length same).symm
    refine ⟨rfl, ?_, rule, longest, rfl, sized⟩
    rintro rfl
    have empty : rule.pattern.characters = [] := List.length_eq_zero_iff.mp sized
    have spelled := rule.pattern.ofCharacters_characters
    rw [empty] at spelled
    exact (checkSimple_of_mem built simple longest.listed).1 spelled.symm

/-- Simple rules take nothing exactly where none of their texts starts the characters. -/
theorem split?_eq_none_iff_of_simple :
    registry.split? characters = none ↔ ∀ rule ∈ rules, ¬rule.Starts characters := by
  constructor
  · intro stuck rule listed starts
    cases found : (registry.rules.map CheckedRule.rule).find? (·.Starts characters) with
    | none =>
      have missed := List.find?_eq_none.mp found rule ((map_rule_perm built).mem_iff.mpr listed)
      simp [starts] at missed
    | some other =>
      have longest := isLongestStart_of_find? built simple found
      obtain ⟨back, whole⟩ := longest.starts
      obtain ⟨taken, rest, rfl, same, _⟩ := List.map_eq_append_iff.mp whole.symm
      have split := (split?_iff_isLongestStart built simple).mpr ⟨longest, rfl, same⟩
      rw [stuck] at split
      contradiction
  · intro none
    refine Option.eq_none_iff_forall_ne_some.mpr fun ⟨rule, taken, rest⟩ split => ?_
    have longest := ((split?_iff_isLongestStart built simple).mp split).1
    exact none rule longest.listed longest.starts

end Registry

/-! ## Scans -/

namespace Rule

/-- The tokens that a match of a simple rule makes: one without a value, unless the rule is
silent. -/
def operatorTokens (rule : Rule) (lexeme : Text) (line : Int) (position : Position) : List Token :=
  if rule.isSilent then [] else [⟨rule.kind, lexeme, none, line, position⟩]

/-- A match of a rule that makes operators is consumed and makes its tokens. -/
theorem MakesOperators.moves_iff {rule : Rule} (makes : rule.MakesOperators) {scanner : Scanner}
    {cursor next : Scanner.Cursor} {made : List Token} {taken rest : List Character}
    (split : scanner.registry.split? cursor.rest = some (rule, taken, rest)) :
    scanner.Moves cursor made next ↔ next = cursor.past taken rest cursor.line ∧
      made = rule.operatorTokens (Text.ofCharacters taken) cursor.line cursor.position := by
  obtain ⟨⟨operator, kind⟩, kept, plain⟩ := makes
  have read : scanner.readAt cursor rule taken =
      if rule.isSilent then .skipped cursor.line
      else .token ⟨rule.kind, Text.ofCharacters taken, none, cursor.line, cursor.position⟩ := by
    rw [Scanner.readAt, Piece.read, Piece.token, KeywordTable.resolve]
    simp [kept, plain, kind]
  rw [Scanner.moves_iff_of_split split, read, operatorTokens]
  by_cases silent : rule.isSilent = true
  · simp [silent, and_comm]
  · simp [silent, and_comm]

end Rule

/-- Fixed texts are read longest first. When all of the accepted rules are simple, a scan with any
keyword table does this at every cursor that it gets to: it moves past the longest text of a rule
that starts the characters left, compared by their values, and of rules with one text it takes the
one of least order, which makes its operator unless it is silent. There is such a text exactly when
the text of some rule starts the characters left. The scan reports an illegal character there, the
first one left, exactly when something is left and the text of no rule starts it. -/
theorem Scanner.fixed_texts_longest {table : Option KeywordTable} {rules : List Rule}
    {scanner : Scanner} (built : Scanner.build table rules = .ok scanner)
    (simple : ∀ rule ∈ rules, rule.tier = .simple) {source : Text} {tokens : List Token}
    {cursor : Cursor} (walk : scanner.Reaches (.start source) tokens cursor) :
    (∀ made next, scanner.Moves cursor made next ↔
      ∃ (rule : Rule) (taken rest : List Character),
        rule.IsLongestStart rules cursor.rest ∧ cursor.rest = taken ++ rest ∧
        taken.map Character.scalar = rule.pattern.characters.map Character.scalar ∧
        next = cursor.past taken rest cursor.line ∧
        made = rule.operatorTokens (Text.ofCharacters taken) cursor.line cursor.position) ∧
    ((∃ rule ∈ rules, rule.Starts cursor.rest) ↔ ∃ made next, scanner.Moves cursor made next) ∧
    ∀ character,
      scanner.scan source = .error (.illegalCharacter character cursor.line cursor.position) ↔
        cursor.rest.head?.map Character.scalar = some character ∧
          ∀ rule ∈ rules, ¬rule.Starts cursor.rest := by
  obtain ⟨accepted, _⟩ := exists_registry_of_built built
  have takes {rule : Rule} {taken rest : List Character} :=
    @Registry.split?_iff_isLongestStart _ _ cursor.rest taken rest rule accepted simple
  have stuck := @Registry.split?_eq_none_iff_of_simple _ _ cursor.rest accepted simple
  have makes (rule : Rule) (listed : rule ∈ rules) : rule.MakesOperators :=
    Rule.makesOperators_of_checkSimple (Registry.checkSimple_of_mem accepted simple listed).2
  refine ⟨fun made next => ⟨fun moves => ?_, ?_⟩, ⟨fun starts => ?_, ?_⟩, fun character => ?_⟩
  · obtain ⟨rule, taken, rest, split⟩ := moves.exists_split
    obtain ⟨longest, whole, same⟩ := takes.mp split
    exact ⟨rule, taken, rest, longest, whole, same,
      ((makes rule longest.listed).moves_iff split).mp moves⟩
  · rintro ⟨rule, taken, rest, longest, whole, same, moved⟩
    exact ((makes rule longest.listed).moves_iff (takes.mpr ⟨longest, whole, same⟩)).mpr moved
  · cases split : scanner.registry.split? cursor.rest with
    | none =>
      obtain ⟨rule, listed, found⟩ := starts
      exact absurd found (stuck.mp split rule listed)
    | some found =>
      obtain ⟨rule, taken, rest⟩ := found
      have listed := (takes.mp split).1.listed
      exact ⟨_, _, ((makes rule listed).moves_iff split).mpr ⟨rfl, rfl⟩⟩
  · rintro ⟨made, next, moves⟩
    obtain ⟨rule, taken, rest, split⟩ := moves.exists_split
    have longest := (takes.mp split).1
    exact ⟨rule, longest.listed, longest.starts⟩
  · rw [walk.illegal_iff, stuck]

/-- Two asterisks are one operator where both they and a single one have rules, and a mark after
them is illegal. -/
theorem Scanner.fixed_texts_longest_power :
    ∃ scanner, Scanner.build (some .empty) [.ofOperator .mul 0, .ofOperator .exp 1] = .ok scanner ∧
      scanner.Moves (.start ("**$" : String)) [⟨.operator .exp, "**", none, 1, .start⟩]
        ⟨Text.characters ("$" : String), ⟨1, 3, 2⟩, 1⟩ ∧
      scanner.scan ("**$" : String) = .error (.illegalCharacter '$' 1 ⟨1, 3, 2⟩) := by
  have observed : (Scanner.build (some .empty) [.ofOperator .mul 0, .ofOperator .exp 1]).map
      (fun _ => ()) = .ok () := by rfl
  obtain ⟨scanner, built, _⟩ := exists_built_of_map observed
  have simple : ∀ rule ∈ [Rule.ofOperator .mul 0, .ofOperator .exp 1], rule.tier = .simple := by
    decide
  have longest : (Rule.ofOperator .exp 1).IsLongestStart [.ofOperator .mul 0, .ofOperator .exp 1]
      (Text.characters ("**$" : String)) :=
    ⟨by simp, by decide, by decide, by decide⟩
  obtain ⟨moves, _, _⟩ := fixed_texts_longest built simple (.refl (.start ("**$" : String)))
  have moved := (moves [⟨.operator .exp, "**", none, 1, .start⟩]
    ⟨Text.characters ("$" : String), ⟨1, 3, 2⟩, 1⟩).mpr
      ⟨_, Text.characters ("**" : String), _, longest, by rfl, by rfl, by rfl, by rfl⟩
  obtain ⟨_, _, illegal⟩ := fixed_texts_longest built simple (.step moved (.refl _))
  exact ⟨scanner, built, moved, (illegal '$').mpr ⟨by rfl, by decide⟩⟩

end Aml
