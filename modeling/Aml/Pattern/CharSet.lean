import Aml.Text.CaseFold
import Aml.Text.Category
import Aml.Text.Script

/-!
# Sets of characters

A set of code points is described by ranges and categories, combined by union and complement, or
closed under equality up to case. A script is the union of its ranges. Membership is read off the
description.
-/
namespace Aml

/-- A description of a set of code points. -/
inductive CharSet where
  | empty
  /-- The code points from `low` to `high`, both included. -/
  | range (low high : Nat)
  /-- The code points of the listed general categories. -/
  | inCategory (choices : List Category)
  | union (left right : CharSet)
  | complement (set : CharSet)
  /-- The code points equal up to case to one of the set. -/
  | folded (set : CharSet)

namespace CharSet

/-- Whether a code point belongs to a set. -/
def contains : CharSet → Nat → Bool
  | .empty, _ => false
  | .range low high, codePoint => low ≤ codePoint && codePoint ≤ high
  | .inCategory choices, codePoint => choices.contains (Category.ofCodePoint codePoint)
  | .union left right, codePoint => left.contains codePoint || right.contains codePoint
  | .complement set, codePoint => !set.contains codePoint
  | .folded set, codePoint => (CaseFold.orbit codePoint).any fun member => set.contains member

/-- The set of one code point. -/
def single (codePoint : Nat) : CharSet :=
  .range codePoint codePoint

/-- The range between two characters. -/
def between (low high : Char) : CharSet :=
  .range low.toNat high.toNat

/-- The union of a list of sets. -/
def unions : List CharSet → CharSet
  | [] => .empty
  | [set] => set
  | set :: rest => .union set (unions rest)

/-- Every code point. -/
def all : CharSet :=
  .complement .empty

/-- Every code point but the newline. -/
def notNewline : CharSet :=
  .complement (single 10)

/-- The decimal digits. -/
def digits : CharSet :=
  between '0' '9'

/-- The blanks: tab, newline, form feed, carriage return and space. -/
def blanks : CharSet :=
  unions [.range 9 10, .range 12 13, single 32]

/-- The letters, the digits and the underscore of ASCII. -/
def word : CharSet :=
  unions [between '0' '9', between 'A' 'Z', single '_'.toNat, between 'a' 'z']

/-- The class of characters with a name as written between `[:` and `:]`. -/
def ofClassName? (name : String) : Option CharSet :=
  match name with
  | "alnum" => some (unions [between '0' '9', between 'A' 'Z', between 'a' 'z'])
  | "alpha" => some (unions [between 'A' 'Z', between 'a' 'z'])
  | "ascii" => some (.range 0 0x7F)
  | "blank" => some (unions [single 9, single 32])
  | "cntrl" => some (unions [.range 0 0x1F, single 0x7F])
  | "digit" => some (between '0' '9')
  | "graph" => some (between '!' '~')
  | "lower" => some (between 'a' 'z')
  | "print" => some (between ' ' '~')
  | "punct" => some (unions [between '!' '/', between ':' '@', .range 0x5B 0x60, .range 0x7B 0x7E])
  | "space" => some (unions [.range 9 13, single 32])
  | "upper" => some (between 'A' 'Z')
  | "word" => some word
  | "xdigit" => some (unions [between '0' '9', between 'A' 'F', between 'a' 'f'])
  | _ => none

/-- The category, or the group of categories, with a name. Unassigned code points have none. -/
def ofCategoryName? : List Char → Option CharSet
  | [letter] => (Category.group? letter).map .inCategory
  | [first, second] => (Category.ofLetters? first second).bind fun category =>
      if category = .unassigned then none else some (.inCategory [category])
  | _ => none

/-- The script with a name. -/
def ofScriptName? (name : String) : Option CharSet :=
  (Script.ranges? name).map fun ranges => unions (ranges.map fun (low, high) => .range low high)

/-- The class of characters with a property name: all characters, a category, a group of
categories, or a script. -/
def ofPropertyName? (name : List Char) : Option CharSet :=
  if name = ['A', 'n', 'y'] then some all
  else ofCategoryName? name <|> ofScriptName? (String.ofList name)

end CharSet

end Aml
