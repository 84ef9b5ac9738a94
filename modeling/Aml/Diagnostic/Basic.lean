import Aml.Position

/-!
# Diagnostics

A diagnostic is a message about a span of a source, with a level, a code, and advice: suggestions
that may carry a replacement, notes, and a help line. It is the form in which every front end
shows an error.
-/
namespace Aml

/-- The severity of a diagnostic. -/
inductive Level where
  | error
  | warning
  | note
  | other (label : Text)
  deriving DecidableEq

namespace Level

/-- The name of a level. -/
def name : Level → Text
  | .error => "error"
  | .warning => "warning"
  | .note => "note"
  | .other label => label

/-- The level with a name. -/
def ofName (name : Text) : Level :=
  if name = "error" then .error
  else if name = "warning" then .warning
  else if name = "note" then .note
  else .other name

end Level

/-- A proposed fix. -/
structure Suggestion where
  message : Text
  /-- The text to put in place of the span; empty when there is none. -/
  replacement : Text := []
  deriving DecidableEq

/-- A message about a span of a source. -/
structure Diagnostic where
  level : Level
  /-- The error code; empty when there is none. -/
  code : Text
  message : Text
  position : Position := {}
  /-- The length of the span. -/
  length : Int := 0
  suggestions : List Suggestion := []
  notes : List Text := []
  /-- The help line; empty when there is none. -/
  help : Text := []
  deriving DecidableEq

namespace Diagnostic

/-- The diagnostic that says nothing. -/
def blank : Diagnostic where
  level := .other []
  code := []
  message := []

/-- A diagnostic on one line: its place, its level and code when it has a code, its message. -/
def render (diagnostic : Diagnostic) : Text :=
  let label : Text := if diagnostic.code = [] then []
    else diagnostic.level.name ++ "[" ++ diagnostic.code ++ "]: "
  diagnostic.position.render ++ ": " ++ label ++ diagnostic.message

end Diagnostic

end Aml
