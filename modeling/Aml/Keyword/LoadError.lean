import Aml.Keyword.Config
import Aml.Yaml.Tag

/-!
# Faults of configuration files

A file may have no keyword table because it holds no document, because it is no YAML text, because
its document does not have the shape of a configuration, or because the configuration describes no
table. Mismatches with the shape are listed line by line.
-/
namespace Aml

/-- What a node of a configuration file is read as. -/
inductive Target where
  | config
  | words
  | string
  deriving DecidableEq

/-- What messages call a target. -/
def Target.name : Target → String
  | .config => "keywords.Config"
  | .words => "map[string]string"
  | .string => "string"

/-- A place where a file does not have the shape of a configuration. -/
inductive Mismatch where
  | repeatedKey (line : Nat) (key : Text) (earlier : Nat)
  | unknownField (line : Nat) (name : Text)
  | repeatedField (line : Nat) (name : Text)
  | wrongType (line : Nat) (tag : Yaml.Tag) (text : Text) (target : Target)
  deriving DecidableEq

namespace Mismatch

/-- An excerpt of a scalar of the wrong type. -/
def excerpt (text : Text) : Text :=
  if 10 < text.length then text.take 7 ++ "..." else text

/-- What a message shows of a node of the wrong type. -/
def shown (tag : Yaml.Tag) (text : Text) : Text :=
  match tag with
  | .sequence | .mapping => tag.name ++ text
  | _ => tag.name ++ " `" ++ excerpt text ++ "`"

/-- The message of a mismatch. -/
def message : Mismatch → Text
  | .repeatedKey line key earlier =>
    "line " ++ Text.ofNat line ++ ": mapping key " ++ key.quoted ++ " already defined at line "
      ++ Text.ofNat earlier
  | .unknownField line name =>
    "line " ++ Text.ofNat line ++ ": field " ++ name ++ " not found in type "
      ++ Target.config.name
  | .repeatedField line name =>
    "line " ++ Text.ofNat line ++ ": field " ++ name ++ " already set in type "
      ++ Target.config.name
  | .wrongType line tag text target =>
    "line " ++ Text.ofNat line ++ ": cannot unmarshal " ++ shown tag text ++ " into "
      ++ target.name

end Mismatch

/-- Why a file has no keyword table. -/
inductive LoadError where
  /-- The file holds no document. -/
  | empty
  /-- The file is no YAML text, or a value contradicts its own tag. -/
  | malformed
  /-- The document does not have the shape of a configuration. -/
  | mismatched (mismatches : List Mismatch)
  | config (error : ConfigError)

/-- The message of a file without a keyword table. -/
def LoadError.message : LoadError → Text
  | .empty => "keyword table is empty"
  | .malformed => "failed to parse keyword table"
  | .mismatched mismatches =>
    "failed to parse keyword table: yaml: unmarshal errors:"
      ++ mismatches.flatMap fun mismatch => Text.ofString "\n  " ++ mismatch.message
  | .config error => error.message

end Aml
