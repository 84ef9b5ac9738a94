import Aml.Keyword.Table

/-!
# Keyword configurations

A configuration describes a keyword table: a base table, which is the default table or none, and
words with the names of their kinds. The words are laid over the base table; a configuration
without a base table must have words.
-/
namespace Aml

/-- A description of a keyword table. -/
structure Config where
  /-- The name of the base table; empty when there is none. -/
  base : Text := []
  /-- The words with the names of their kinds. -/
  keywords : List (Text × Text) := []
  deriving DecidableEq

/-- Why a configuration describes no table. -/
inductive ConfigError where
  | unknownBase (name : Text)
  | noKeywords
  | unknownKind (spelling name : Text)
  | keyword (error : KeywordError)
  deriving DecidableEq

/-- The message of a configuration without a table. -/
def ConfigError.message : ConfigError → Text
  | .unknownBase name => "unknown base table " ++ name.quoted
  | .noKeywords => "keyword table defines no keywords"
  | .unknownKind spelling name =>
    "keyword " ++ spelling.quoted ++ ": unknown kind " ++ name.quoted
  | .keyword error => error.message

namespace Config

/-- The name of the default table. -/
def defaultName : Text := Text.ofString "default"

/-- The base table. -/
def baseTable (config : Config) : Except ConfigError KeywordTable :=
  if config.base = [] then .ok .empty
  else if config.base = defaultName then .ok .default
  else .error (.unknownBase config.base)

/-- Lays words over a table one after the other. -/
def overlay (table : KeywordTable) : List (Text × Text) → Except ConfigError KeywordTable
  | [] => .ok table
  | (spelling, name) :: rest =>
    match Kind.ofName? name with
    | none => .error (.unknownKind spelling name)
    | some kind =>
      match table.add spelling kind kind.group with
      | .ok table => overlay table rest
      | .error error => .error (.keyword error)

/-- The table that a configuration describes. -/
def table (config : Config) : Except ConfigError KeywordTable :=
  match config.baseTable with
  | .error error => .error error
  | .ok base =>
    if config.keywords.isEmpty && config.base.isEmpty then .error .noKeywords
    else overlay base config.keywords

end Config

end Aml
