import Aml.Text.Basic
import Aml.Yaml.Cursor

/-!
# YAML tokens

The tokens of a source show its structure: documents, collections, keys and values, and the
scalars between them with their anchors and tags. The structure that block collections have
through indentation is shown by tokens of its own.
-/
namespace Aml.Yaml

/-- How a scalar is written. -/
inductive Style where
  | plain
  | quoted
  | block
  deriving DecidableEq

/-- What a token is. -/
inductive TokenKind where
  | streamEnd
  /-- The version of the language that a document uses. -/
  | version (major minor : Nat)
  /-- An abbreviation for the start of tags. -/
  | tagDirective (handle start : Text)
  | documentStart
  | documentEnd
  | blockSequenceStart
  | blockMappingStart
  | blockEnd
  | flowSequenceStart
  | flowSequenceEnd
  | flowMappingStart
  | flowMappingEnd
  | blockEntry
  | flowEntry
  | key
  | value
  | alias (name : Text)
  | anchor (name : Text)
  /-- A tag in two parts; a handle stands for the start of a tag, and no handle for nothing. -/
  | tag (handle suffix : Text)
  | scalar (style : Style) (text : Text)
  deriving DecidableEq

/-- A token with the marks of its start and its end. -/
structure Token where
  kind : TokenKind
  start : Mark
  stop : Mark
  deriving DecidableEq

/-- The bytes of characters. -/
def textOf (characters : List Char) : Text :=
  characters.flatMap Text.ofChar

end Aml.Yaml
