import Aml.Rule.Basic

/-!
# The rules of the language

Seven content rules read strings, reals, integers, names, comments, newlines and blanks; one
simple rule per operator reads its fixed spelling.
-/
namespace Aml.Rule

/-- Reads a string between double quotes, in which a backslash escapes the character after it. -/
def stringLiteral : Rule where
  name := "STRING"
  kind := .operand .string
  pattern := "\"([^\\\\\"]|(\\\\.))*\""
  order := 0
  converter := some .string

/-- Reads a numeral with digits on both sides of a point. -/
def realNumeral : Rule where
  name := "REAL"
  kind := .operand .real
  pattern := "-?[0-9]+\\.[0-9]+"
  order := 1
  converter := some .real

/-- Reads a numeral without a point. -/
def integerNumeral : Rule where
  name := "INTEGER"
  kind := .operand .integer
  pattern := "-?[0-9]+"
  order := 2
  converter := some .integer

/-- Reads a name, which may be a keyword. -/
def identifier : Rule where
  name := "IDENTIFIER"
  kind := .operand .identifier
  pattern := "[a-zA-Z][a-zA-Z_0-9]*"
  order := 3
  converter := some .identity

/-- Skips a comment up to the end of its line. -/
def comment : Rule where
  name := "COMMENT"
  pattern := "#[^\\n]*"
  order := 4
  suppress := true

/-- Skips newlines and counts them. -/
def newlineRun : Rule where
  name := "NEWLINE"
  pattern := "\\n+"
  order := 5
  suppress := true
  countLines := true

/-- Skips spaces and tabs. -/
def blankRun : Rule where
  name := "WHITESPACE"
  pattern := "[ \\t]+"
  order := 6
  suppress := true

/-- The content rules of the language. -/
def contentRules : List Rule :=
  [stringLiteral, realNumeral, integerNumeral, identifier, comment, newlineRun, blankRun]

/-- The rule of an operator, given its place among the operators. -/
def ofOperator (operator : Operator) (order : Nat) : Rule where
  name := operator.name
  kind := .operator operator
  pattern := operator.spelling
  tier := .simple
  order := order

/-- The simple rules of the language, one per operator. -/
def simpleRules : List Rule :=
  Operator.all.zipIdx.map fun (operator, order) => ofOperator operator order

/-- The rules of the language in declaration order. -/
def defaults : List Rule :=
  contentRules ++ simpleRules

end Aml.Rule
