import Aml.Number.Real
import Aml.Yaml.Timestamp

/-!
# YAML tags

A tag says what a node stands for. A scalar without quotes and without a tag of its own has one by
its text: the words for null and for the truth values, numbers, timestamps, and strings for
everything else.
-/
namespace Aml.Yaml

/-- What a node stands for. -/
inductive Tag where
  | null
  | boolean
  | integer
  | real
  | timestamp
  | string
  | merge
  | sequence
  | mapping
  | other (name : Text)
  deriving DecidableEq

namespace Tag

/-- The tags with names of their own. -/
def known : List (Tag × String) :=
  [(.null, "!!null"), (.boolean, "!!bool"), (.integer, "!!int"), (.real, "!!float"),
   (.timestamp, "!!timestamp"), (.string, "!!str"), (.merge, "!!merge"), (.sequence, "!!seq"),
   (.mapping, "!!map")]

/-- The short name of a tag. -/
def name : Tag → Text
  | .null => "!!null"
  | .boolean => "!!bool"
  | .integer => "!!int"
  | .real => "!!float"
  | .timestamp => "!!timestamp"
  | .string => "!!str"
  | .merge => "!!merge"
  | .sequence => "!!seq"
  | .mapping => "!!map"
  | .other name => name

/-- The start of the tags that the language itself defines. -/
def coreStart : Text := Text.ofString "tag:yaml.org,2002:"

/-- The tag with a written name. -/
def ofText (text : Text) : Tag :=
  let short : Text :=
    if coreStart.isPrefixOf text then "!!" ++ text.drop coreStart.length else text
  match known.find? fun entry => Text.ofString entry.2 = short with
  | some (tag, _) => tag
  | none => .other short

/-- The words for null. -/
def nullWords : List String :=
  ["", "~", "null", "Null", "NULL"]

/-- The words for the truth values. -/
def booleanWords : List String :=
  ["true", "True", "TRUE", "false", "False", "FALSE"]

/-- The words for numbers. -/
def realWords : List String :=
  [".nan", ".NaN", ".NAN", ".inf", ".Inf", ".INF", "+.inf", "+.Inf", "+.INF", "-.inf", "-.Inf",
   "-.INF"]

/-- Whether a text is one of the given words. -/
def isWordOf (words : List String) (text : Text) : Bool :=
  words.any fun word => Text.ofString word = text

/-- The integer that a text writes, signed with 64 bits or unsigned with 64 bits. A base prefix may
stand in front of the sign. -/
def integer? (text : Text) : Option Int :=
  let based (base : Nat) (text : Text) : Option Int :=
    match Numeral.splitSign text with
    | (_, []) => none
    | (negative, digits) => do
      let value ← (Numeral.magnitude base false digits 0).toOption
      (Numeral.signed negative value).toOption
  match Numeral.prefixed text with
  | .ok value => some value
  | .error _ =>
    let (base, digits) := Numeral.splitBase text
    match text, Numeral.magnitude base false digits 0 with
    | _ :: _, .ok value => some value
    | 48 :: 98 :: rest, _ => based 2 rest
    | 48 :: 111 :: rest, _ => based 8 rest
    | _, _ => none

/-- Whether a byte may stand in a decimal number. -/
def isRealByte (byte : UInt8) : Bool :=
  Numeral.isDigit byte || [43, 45, 46, 69, 101].contains byte

/-- Whether a text writes a decimal number in the range of double precision. -/
def isReal (text : Text) : Bool :=
  text.all isRealByte && (Numeral.real text).isOk

/-- The tag of a text that starts with a digit or a sign. -/
def ofNumeral (text : Text) : Tag :=
  let digits := text.filter (· ≠ Numeral.underscore)
  if Timestamp.isTimestamp text then .timestamp
  else if (integer? digits).isSome then .integer
  else if isReal digits then .real
  else .string

/-- The tag of a scalar without quotes and without a tag of its own. -/
def ofPlain (text : Text) : Tag :=
  if isWordOf nullWords text then .null
  else if isWordOf booleanWords text then .boolean
  else if isWordOf realWords text then .real
  else if text = Text.ofString "<<" then .merge
  else
    match text with
    | [] => .null
    | first :: _ =>
      if Numeral.isDigit first || first = 43 || first = 45 then ofNumeral text
      else if first = 46 && isReal text then .real
      else .string

/-- Whether a text can have a tag: the tags of words and numbers need one of theirs, and an integer
serves as a real number. -/
def accepts (tag : Tag) (text : Text) : Bool :=
  let found := ofPlain text
  match tag with
  | .null | .boolean | .integer | .timestamp => found = tag
  | .real =>
    found = .real
      || (integer? (text.filter (· ≠ Numeral.underscore))).any fun value => value < 0x8000000000000000
  | _ => true

/-- Whether a scalar with the tag is a string for a reader that looks for any kind of value. -/
def isTextual : Tag → Bool
  | .null | .boolean | .integer | .real | .timestamp => false
  | _ => true

end Tag

end Aml.Yaml
