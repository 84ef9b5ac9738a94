import Aml.Pattern.Match
import Aml.Pattern.Parser
import Aml.Rule.Basic

/-!
# Registries of rules

A registry holds checked rules in the order in which they are tried: content rules by their
order, then simple rules by decreasing length of their text, equal lengths by their order. The
rules are checked one by one as listed, and the first fault of the first faulty rule is reported.
Names are unique, and so are orders within a tier, so the order of trial does not depend on the
order of listing. The engine names rules by symbols, which are numbers that stand for their names;
a registry, whose names are distinct, leads back from a symbol to its rule.

Each rule carries the matcher it is tried with. A content pattern in which the first run of
backslashes before a digit has an odd length is taken for a back-reference, which no match can
satisfy: trying it is a failure in itself.
-/
namespace Aml

/-- Why a list of rules is refused. -/
inductive RegistryError where
  | noRules
  | unnamed (pattern : Text)
  | duplicateName (name : Text)
  | unknownTier (name : Text) (tier : Tier)
  | sharedOrder (earlier later : Text) (tier : Tier) (order : Int)
  | emptyPattern (name : Text)
  | notOperator (name : Text) (kind : Kind)
  | suppressesOrConverts (name : Text)
  | badPattern (name : Text) (error : PatternError)
  | matchesEmpty (name : Text)
  | undeclaredKind (name : Text) (index : Int)
  /-- The pattern of the rule at a place of the trial order cannot be anchored. -/
  | unanchored (place : Nat) (error : PatternError)
  deriving DecidableEq

/-- The message of a fault. -/
def RegistryError.message : RegistryError → Text
  | .noRules => "no lexical rules"
  | .unnamed pattern => "rule with pattern " ++ pattern.quoted ++ " has no name"
  | .duplicateName name => "duplicate rule " ++ name.quoted
  | .unknownTier name tier => "rule " ++ name.quoted ++ ": unknown class " ++ tier.name
  | .sharedOrder earlier later tier order =>
    "rules " ++ earlier.quoted ++ " and " ++ later.quoted ++ " share " ++ tier.name ++ " order "
      ++ Text.ofInt order
  | .emptyPattern name => "rule " ++ name.quoted ++ " has an empty pattern"
  | .notOperator name kind =>
    "simple rule " ++ name.quoted ++ " must produce an operator, not " ++ kind.name
  | .suppressesOrConverts name => "simple rule " ++ name.quoted ++ " cannot suppress or convert"
  | .badPattern name error => "rule " ++ name.quoted ++ ": " ++ error.message
  | .matchesEmpty name => "rule " ++ name.quoted ++ " matches the empty string"
  | .undeclaredKind name index =>
    "rule " ++ name.quoted ++ " produces undeclared kind " ++ Text.ofInt index
  | .unanchored place error =>
    "failed to build lexer: lexer: Root." ++ Text.ofNat place ++ ": " ++ error.message

/-- How a rule is tried at a cursor. -/
inductive Matcher where
  /-- The characters of a fixed text. -/
  | literal (scalars : List Char)
  /-- A regular expression. -/
  | regular (program : Program)
  /-- A back-reference, which fails the scan whenever it is tried. -/
  | unmatchable

/-- What trying a matcher gives. -/
inductive Trial where
  /-- The matcher matches this many characters. -/
  | matched (length : Nat)
  | missed
  /-- The scan fails. -/
  | refused
  deriving DecidableEq

/-- Whether characters start with the given scalar values. -/
def startsWith : List Char → List Character → Bool
  | [], _ => true
  | _ :: _, [] => false
  | scalar :: scalars, character :: characters =>
    scalar = character.scalar && startsWith scalars characters

/-- Tries a matcher at the start of the remaining characters. -/
def Matcher.attempt (matcher : Matcher) (characters : List Character) : Trial :=
  match matcher with
  | .literal scalars =>
    if startsWith scalars characters then .matched scalars.length else .missed
  | .regular program =>
    match program.match? characters with
    | some length => .matched length
    | none => .missed
  | .unmatchable => .refused

/-- A checked rule with the matcher it is tried with. -/
structure CheckedRule where
  rule : Rule
  matcher : Matcher

namespace Rule

/-- The length of the run of backslashes that ends before the first digit after such a run;
`run` backslashes have just been read. -/
def referenceRun : Text → (run : Nat) → Nat
  | [], _ => 0
  | byte :: rest, run =>
    if byte = 92 then referenceRun rest (run + 1)
    else if 48 ≤ byte ∧ byte ≤ 57 ∧ run ≠ 0 then run
    else referenceRun rest 0

/-- Whether a pattern is taken for a back-reference. -/
def isReference (pattern : Text) : Bool :=
  referenceRun pattern 0 % 2 = 1

/-- Checks the pattern and the kind of a content rule. -/
def checkContent (rule : Rule) : Except RegistryError Unit :=
  match Pattern.parse rule.pattern with
  | .error error => .error (.badPattern rule.name error)
  | .ok pattern =>
    if (pattern.compile.match? []).isSome then .error (.matchesEmpty rule.name)
    else
      match rule.suppress, rule.kind with
      | false, .undeclared index => .error (.undeclaredKind rule.name index)
      | _, _ => .ok ()

/-- Checks the meaning of a simple rule. -/
def checkSimple (rule : Rule) : Except RegistryError Unit :=
  if !rule.kind.isOperator then .error (.notOperator rule.name rule.kind)
  else if rule.suppress || rule.converter.isSome then .error (.suppressesOrConverts rule.name)
  else .ok ()

/-- Checks a rule against the rules listed before it. -/
def check (rule : Rule) (earlier : List Rule) : Except RegistryError Unit :=
  if rule.name = [] then .error (.unnamed rule.pattern)
  else if earlier.any (fun other => other.name = rule.name) then
    .error (.duplicateName rule.name)
  else
    match rule.tier with
    | .undeclared _ => .error (.unknownTier rule.name rule.tier)
    | _ =>
      match earlier.find? (fun other => other.tier = rule.tier && other.order = rule.order) with
      | some other => .error (.sharedOrder other.name rule.name rule.tier rule.order)
      | none =>
        if rule.pattern = [] then .error (.emptyPattern rule.name)
        else
          match rule.tier with
          | .simple => rule.checkSimple
          | _ => rule.checkContent

/-- Checks every rule of a list against the rules before it, latest first in `earlier`. -/
def checkAll : List Rule → (earlier : List Rule) → Except RegistryError Unit
  | [], _ => .ok ()
  | rule :: rest, earlier =>
    match rule.check earlier with
    | .error error => .error error
    | .ok () => checkAll rest (rule :: earlier)

/-- Whether a rule is tried before another one. -/
def precedes (left right : Rule) : Bool :=
  if left.tier ≠ right.tier then left.tier.index < right.tier.index
  else if left.tier = .simple ∧ left.pattern.length ≠ right.pattern.length then
    right.pattern.length < left.pattern.length
  else left.order < right.order

/-- Puts a rule before the first one that it precedes. -/
def insert (rule : Rule) : List Rule → List Rule
  | [] => [rule]
  | other :: rest =>
    if rule.precedes other then rule :: other :: rest else other :: insert rule rest

/-- The rules in the order in which they are tried. -/
def inOrder (rules : List Rule) : List Rule :=
  rules.foldl (fun ordered rule => insert rule ordered) []

/-- The matcher of a content pattern, which is tried as a group anchored at the cursor. -/
def contentMatcher (pattern : Text) : Except PatternError Matcher :=
  if isReference pattern then .ok .unmatchable
  else
    match Pattern.parse ("^(?:" ++ pattern ++ ")") with
    | .ok pattern => .ok (.regular pattern.compile)
    | .error error => .error error

/-- A text as a pattern that matches exactly it: operators are escaped by a backslash. -/
def escapedLiteral (text : Text) : Text :=
  let operators : Text := "\\.+*?()|[]\x7b\x7d^$"
  text.flatMap fun byte => if operators.contains byte then [92, byte] else [byte]

/-- The matcher of a simple pattern, which must be well-formed text. -/
def simpleMatcher (pattern : Text) : Except PatternError Matcher :=
  match pattern.malformedSuffix? with
  | some suffix => .error ⟨.malformedText, escapedLiteral suffix ++ ")"⟩
  | none => .ok (.literal (pattern.characters.map Character.scalar))

/-- The matcher of a rule. -/
def matcher (rule : Rule) : Except PatternError Matcher :=
  match rule.tier with
  | .simple => simpleMatcher rule.pattern
  | _ => contentMatcher rule.pattern

/-- Gives each rule its matcher; the rules start at a place of the trial order. -/
def withMatchers : (place : Nat) → List Rule → Except RegistryError (List CheckedRule)
  | _, [] => .ok []
  | place, rule :: rest =>
    match rule.matcher with
    | .error error => .error (.unanchored place error)
    | .ok matcher =>
      match withMatchers (place + 1) rest with
      | .error error => .error error
      | .ok checked => .ok (⟨rule, matcher⟩ :: checked)

/-! ## What the checks and the order keep -/

/-- The names of accepted rules differ from each other and from those of the rules before them. -/
theorem nodup_of_checkAll {rules earlier : List Rule} (passed : checkAll rules earlier = .ok ()) :
    (rules.map name).Nodup ∧ ∀ rule ∈ rules, ∀ other ∈ earlier, other.name ≠ rule.name := by
  induction rules generalizing earlier with
  | nil => simp
  | cons rule rest ih =>
    rw [checkAll] at passed
    split at passed
    · contradiction
    · rename_i checked
      obtain ⟨apart, later⟩ := ih passed
      have fresh : ∀ other ∈ earlier, other.name ≠ rule.name := by
        intro other listed same
        unfold check at checked
        split at checked
        · contradiction
        · rw [if_pos (List.any_eq_true.mpr ⟨other, listed, decide_eq_true same⟩)] at checked
          contradiction
      refine ⟨List.nodup_cons.mpr ⟨?_, apart⟩, List.forall_mem_cons.mpr ⟨fresh, ?_⟩⟩
      · intro member
        obtain ⟨other, listed, same⟩ := List.mem_map.mp member
        exact later other listed rule List.mem_cons_self same.symm
      · exact fun other listed before member =>
          later other listed before (List.mem_cons_of_mem _ member)

/-- Putting a rule in its place adds it and keeps the others. -/
theorem insert_perm (rule : Rule) (rules : List Rule) :
    (insert rule rules).Perm (rule :: rules) := by
  induction rules with
  | nil => exact .refl _
  | cons first rest ih =>
    rw [insert]
    split
    · exact .refl _
    · exact (ih.cons first).trans (.swap rule first rest)

/-- Ordering rules neither adds nor drops any. -/
theorem inOrder_perm (rules : List Rule) : (inOrder rules).Perm rules := by
  have gathered (ordered : List Rule) :
      (rules.foldl (fun ordered rule => insert rule ordered) ordered).Perm (rules ++ ordered) := by
    induction rules generalizing ordered with
    | nil => exact .refl _
    | cons first rest ih =>
      have inserted := (insert_perm first ordered).append_left rest
      exact (ih (insert first ordered)).trans (inserted.trans List.perm_middle)
  simpa only [inOrder, List.append_nil] using gathered []

/-- Giving rules their matchers keeps the rules. -/
theorem map_withMatchers {place : Nat} {rules : List Rule} {checked : List CheckedRule}
    (made : withMatchers place rules = .ok checked) : checked.map CheckedRule.rule = rules := by
  induction rules generalizing place checked with
  | nil =>
    obtain rfl := Except.ok.inj made
    rfl
  | cons rule rest ih =>
    rw [withMatchers] at made
    split at made
    · contradiction
    · split at made
      · contradiction
      · rename_i others later
        obtain rfl := Except.ok.inj made
        rw [List.map_cons, ih later]

/-- The names of accepted rules are distinct in the order of trial too. -/
theorem nodup_of_withMatchers {rules : List Rule} {checked : List CheckedRule}
    (passed : checkAll rules [] = .ok ()) (made : withMatchers 0 (inOrder rules) = .ok checked) :
    (checked.map fun checked => checked.rule.name).Nodup := by
  have names : (checked.map fun checked => checked.rule.name) = (inOrder rules).map name := by
    rw [← map_withMatchers made, List.map_map]
    rfl
  rw [names, ((inOrder_perm rules).map name).nodup_iff]
  exact (nodup_of_checkAll passed).1

end Rule

/-- Checked rules in the order in which they are tried. -/
structure Registry where
  rules : List CheckedRule
  /-- No two rules have the same name. -/
  distinct : (rules.map fun checked => checked.rule.name).Nodup

namespace Registry

/-- Checks rules and fixes the order in which they are tried. -/
def ofRules (rules : List Rule) : Except RegistryError Registry :=
  if rules.isEmpty then .error .noRules
  else
    match passed : Rule.checkAll rules [] with
    | .error error => .error error
    | .ok () =>
      match made : Rule.withMatchers 0 (Rule.inOrder rules) with
      | .error error => .error error
      | .ok checked => .ok ⟨checked, Rule.nodup_of_withMatchers passed made⟩

/-- A registry is built from rules that pass every check, and holds them in order with their
matchers. -/
theorem ofRules_eq_ok_iff {rules : List Rule} {registry : Registry} :
    ofRules rules = .ok registry ↔ rules ≠ [] ∧ Rule.checkAll rules [] = .ok () ∧
      Rule.withMatchers 0 (Rule.inOrder rules) = .ok registry.rules := by
  unfold ofRules
  constructor
  · intro built
    split at built
    · contradiction
    · rename_i present
      split at built
      · contradiction
      · rename_i passed
        split at built
        · contradiction
        · rename_i made
          obtain rfl := Except.ok.inj built
          exact ⟨by simpa using present, passed, made⟩
  · rintro ⟨present, passed, made⟩
    rw [if_neg (by simpa using present)]
    split
    · rename_i refused
      cases passed.symm.trans refused
    · split
      · rename_i refused
        cases made.symm.trans refused
      · rename_i again
        obtain rfl := Except.ok.inj (made.symm.trans again)
        rfl

/-- The symbol by which the engine names a rule: the rules are numbered as they are tried. -/
def symbol (registry : Registry) (name : Text) : Nat :=
  registry.rules.findIdx fun checked => checked.rule.name = name

/-- The rule of a symbol. -/
def rule? (registry : Registry) (symbol : Nat) : Option Rule :=
  registry.rules[symbol]?.map CheckedRule.rule

end Registry

end Aml
