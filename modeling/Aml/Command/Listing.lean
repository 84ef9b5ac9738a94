import Aml.Rule.Registry
import Aml.Text.Columns
import Aml.Token

/-!
# Listings

The command lists tokens and rules as tables with aligned columns. The row of a token shows its
logical line and its column, its kind, its lexeme and its value. The row of a rule shows its place
in the order in which rules are tried, its tier, its name and its pattern.
-/
namespace Aml.Command

/-- A row of cells, each but the last ended by a tab. -/
def row (cells : List Text) : Text :=
  Text.joined [9] cells ++ [Text.newline]

/-- The row of a token. -/
def tokenRow (token : Token) : Text :=
  let value : Text := match token.value with
    | some value => value.render
    | none => []
  row [Text.ofInt token.line ++ ":" ++ Text.ofInt token.position.column, token.kind.name,
    token.lexeme, value]

/-- The listing of tokens. -/
def tokenListing (tokens : List Token) : Text :=
  Columns.align (tokens.flatMap tokenRow)

/-- The rows of rules from a place in the order on. -/
def ruleRows : (place : Nat) → List Rule → Text
  | _, [] => []
  | place, rule :: rest =>
    row [Text.ofNat place, rule.tier.name, rule.name, rule.pattern] ++ ruleRows (place + 1) rest

/-- The listing of rules under a heading. -/
def ruleListing (rules : List Rule) : Text :=
  Columns.align (row ["#", "CLASS", "RULE", "PATTERN"] ++ ruleRows 0 rules)

end Aml.Command
