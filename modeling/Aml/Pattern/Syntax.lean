import Aml.Pattern.CharSet

/-!
# Patterns

A pattern is a regular expression over characters. `Pattern.height` measures how deeply a
pattern nests and `Pattern.fitsRepeats` how often its counted repetitions multiply; both have a
limit of a thousand. A run of literals counts as one node, and so does a sequence or a choice of
any length.
-/
namespace Aml

/-- A condition on the place between two characters. -/
inductive Assertion where
  | textStart
  | textEnd
  | lineStart
  | lineEnd
  | wordBoundary
  | noWordBoundary
  deriving DecidableEq

/-- A regular expression. Repetitions are greedy or take as little as they can. -/
inductive Pattern where
  /-- The empty text. -/
  | empty
  /-- One character, up to case when `folded` is set. -/
  | literal (codePoint : Nat) (folded : Bool)
  /-- One character of a set. -/
  | oneOf (choices : CharSet)
  | anchor (assertion : Assertion)
  /-- A parenthesised pattern that marks its match. -/
  | group (body : Pattern)
  | sequence (first second : Pattern)
  /-- Either pattern, the first one preferred. -/
  | choice (first second : Pattern)
  /-- Any number of times. -/
  | star (body : Pattern) (greedy : Bool)
  /-- At least once. -/
  | plus (body : Pattern) (greedy : Bool)
  /-- At most once. -/
  | optional (body : Pattern) (greedy : Bool)
  /-- At least `least` times and, when given, at most `most` times. -/
  | counted (body : Pattern) (least : Nat) (most : Option Nat) (greedy : Bool)

namespace Pattern

/-- Patterns one after the other. -/
def ofSequence : List Pattern → Pattern
  | [] => .empty
  | [pattern] => pattern
  | pattern :: rest => .sequence pattern (ofSequence rest)

/-- Alternatives in order of preference. -/
def ofChoices : List Pattern → Pattern
  | [] => .empty
  | [pattern] => pattern
  | pattern :: rest => .choice pattern (ofChoices rest)

/-- Whether a pattern can match the empty text, assertions taken as met. -/
def isNullable : Pattern → Bool
  | .empty => true
  | .literal _ _ => false
  | .oneOf _ => false
  | .anchor _ => true
  | .group body => body.isNullable
  | .sequence first second => first.isNullable && second.isNullable
  | .choice first second => first.isNullable || second.isNullable
  | .star _ _ => true
  | .plus body _ => body.isNullable
  | .optional _ _ => true
  | .counted body least most _ => least = 0 || most = some 0 || body.isNullable

/-- What a node counts as when it joins its neighbours. -/
inductive Form where
  /-- A single literal. -/
  | letter (folded : Bool)
  /-- A single character of a set. -/
  | member
  /-- A run of literals. -/
  | word (folded : Bool)
  | sequence
  | choice
  | other
  deriving DecidableEq

/-- The form of a node with its height. -/
structure Shape where
  form : Form
  height : Nat

/-- The height a node contributes to a node of the given form that absorbs its children. -/
def Shape.heightWithin (shape : Shape) (form : Form) : Nat :=
  if shape.form = form then shape.height - 1 else shape.height

/-- Whether a node stands for one character. -/
def Shape.isSingle (shape : Shape) : Bool :=
  match shape.form with
  | .letter _ => true
  | .member => true
  | _ => false

/-- The common case rule of two runs of literals. -/
def Form.joined? : Form → Form → Option Bool
  | .letter left, .letter right => if left = right then some left else none
  | .letter left, .word right => if left = right then some left else none
  | .word left, .letter right => if left = right then some left else none
  | .word left, .word right => if left = right then some left else none
  | _, _ => none

/-- A node above another one. -/
def Shape.above (shape : Shape) : Shape :=
  ⟨.other, shape.height + 1⟩

/-- The form and the height of a pattern. -/
def shape : Pattern → Shape
  | .empty => ⟨.other, 1⟩
  | .literal _ folded => ⟨.letter folded, 1⟩
  | .oneOf _ => ⟨.member, 1⟩
  | .anchor _ => ⟨.other, 1⟩
  | .group body => body.shape.above
  | .sequence first second =>
    let left := first.shape
    let right := second.shape
    match left.form.joined? right.form with
    | some folded => ⟨.word folded, 1⟩
    | none =>
      ⟨.sequence, max (left.heightWithin .sequence) (right.heightWithin .sequence) + 1⟩
  | .choice first second =>
    let left := first.shape
    let right := second.shape
    if left.isSingle && right.isSingle then ⟨.member, 1⟩
    else ⟨.choice, max (left.heightWithin .choice) (right.heightWithin .choice) + 1⟩
  | .star body _ => body.shape.above
  | .plus body _ => body.shape.above
  | .optional body _ => body.shape.above
  | .counted body _ _ _ => body.shape.above

/-- How deeply a pattern nests. -/
def height (pattern : Pattern) : Nat :=
  pattern.shape.height

/-- The deepest nesting a pattern may have. -/
def heightLimit : Nat := 1000

/-- The largest count of a repetition, and of nested repetitions together. -/
def repeatLimit : Nat := 1000

/-- Whether the counts of nested repetitions stay within a budget, which each count divides. -/
def fitsRepeats : Pattern → (budget : Nat) → Bool
  | .group body, budget => body.fitsRepeats budget
  | .sequence first second, budget => first.fitsRepeats budget && second.fitsRepeats budget
  | .choice first second, budget => first.fitsRepeats budget && second.fitsRepeats budget
  | .star body _, budget => body.fitsRepeats budget
  | .plus body _, budget => body.fitsRepeats budget
  | .optional body _, budget => body.fitsRepeats budget
  | .counted body least most _, budget =>
    let count := most.getD least
    if most = some 0 then true
    else if budget < count then false
    else body.fitsRepeats (if count = 0 then budget else budget / count)
  | _, _ => true

end Pattern

end Aml
