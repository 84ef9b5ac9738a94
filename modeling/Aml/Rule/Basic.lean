import Aml.Literal

/-!
# Lexical rules

A rule pairs a pattern with what its matches mean. Content rules are regular expressions and are
tried first, in their declared order; simple rules are the literal texts of operators and are
tried longest first. The pattern of a rule decides where a lexeme ends; the other fields decide
what becomes of it.
-/
namespace Aml

/-- The priority tier of a rule, or an index outside the declared tiers. -/
inductive Tier where
  | content
  | simple
  | undeclared (index : Int)
  deriving DecidableEq

namespace Tier

/-- The tier with an index. -/
def ofIndex : Int → Tier
  | 0 => .content
  | 1 => .simple
  | index => .undeclared index

/-- The index of a tier. -/
def index : Tier → Int
  | .content => 0
  | .simple => 1
  | .undeclared index => index

/-- The name of a tier, or the index of an undeclared one. -/
def name : Tier → Text
  | .content => "content"
  | .simple => "simple"
  | .undeclared index => "Class(" ++ Text.ofInt index ++ ")"

end Tier

/-- One lexical rule. -/
structure Rule where
  name : Text := []
  /-- The kind of the tokens the rule makes. -/
  kind : Kind := Kind.first
  /-- A regular expression for a content rule, the text itself for a simple rule. -/
  pattern : Text := []
  tier : Tier := .content
  /-- The declared order within the tier. -/
  order : Int := 0
  /-- How the value of a token is computed; no converter gives no value. -/
  converter : Option Converter := none
  /-- Whether matches are consumed without making a token. -/
  suppress : Bool := false
  /-- Whether the newlines of a suppressed match advance the line counter. -/
  countLines : Bool := false

/-- Whether a byte, read as a Latin-1 character, is a lower-case letter. -/
def isLowerByte (byte : UInt8) : Bool :=
  97 ≤ byte && byte ≤ 122 || byte = 0xB5 || 0xDF ≤ byte && byte ≠ 0xF7

/-- Whether matches are dropped before the rule itself is consulted: the first byte of the name
is a lower-case letter. -/
def Rule.isSilent (rule : Rule) : Bool :=
  match rule.name with
  | first :: _ => isLowerByte first
  | [] => false

end Aml
