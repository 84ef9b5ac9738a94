import Aml.Text.Quote
import Aml.Yaml.Tag

/-!
# YAML documents

A document is a tree of scalars, sequences and mappings, in which an alias stands for a node that
has an anchor. An alias may stand for a node that contains it, so anchored nodes are kept by
number beside the tree.
-/
namespace Aml.Yaml

/-- A node of a document, with the line on which it starts, from 1. -/
inductive Node where
  | scalar (line : Nat) (tag : Tag) (text : Text)
  | sequence (line : Nat) (tag : Tag) (items : List Node)
  | mapping (line : Nat) (tag : Tag) (entries : List (Node × Node))
  /-- The node with an anchor, which has a name and a number. -/
  | alias (line : Nat) (name : Text) (target : Nat)

namespace Node

/-- The scalar that stands where there is none. -/
def absent (line : Nat) : Node :=
  .scalar line .null []

/-- The line on which a node starts. -/
def line : Node → Nat
  | .scalar line _ _ => line
  | .sequence line _ _ => line
  | .mapping line _ _ => line
  | .alias line _ _ => line

/-- The text of a scalar, the name of an alias, and nothing for a collection. -/
def label : Node → Text
  | .scalar _ _ text => text
  | .alias _ name _ => name
  | _ => []

/-- Whether two keys are written alike: both are of one form and have the same label. -/
def isLike : Node → Node → Bool
  | .scalar _ _ left, .scalar _ _ right => left = right
  | .alias _ left _, .alias _ right _ => left = right
  | .sequence _ _ _, .sequence _ _ _ => true
  | .mapping _ _ _, .mapping _ _ _ => true
  | _, _ => false

/-- Whether a key merges the entries of its value into the mapping. -/
def isMerge : Node → Bool
  | .scalar _ .merge text => text = Text.ofString "<<"
  | _ => false

end Node

/-- A document with its anchored nodes by number. -/
structure Document where
  root : Node
  anchored : List (Nat × Node) := []
  /-- A bound on the number of nodes. -/
  size : Nat := 0

/-- The node that a node stands for. -/
def Document.resolve? (document : Document) : Node → Option Node
  | .alias _ _ target => document.anchored.lookup target
  | node => some node

end Aml.Yaml
