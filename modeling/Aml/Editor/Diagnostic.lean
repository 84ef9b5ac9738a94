import Aml.Diagnostic.Lexical
import Aml.Editor.Position

/-!
# Diagnostics in an editor

The failure of a scan is shown in the editor as one diagnostic over the offending span, or at the
start of the document when the failure has no place. A document that scans has none.
-/
namespace Aml

/-- A diagnostic as an editor shows it. -/
structure EditorDiagnostic where
  range : EditorRange := {}
  /-- The error code, if the failure has one. -/
  code : Option Text := none
  message : Text
  deriving DecidableEq

namespace EditorDiagnostic

/-- The name under which the diagnostics appear. -/
def source : String := "aml-lexer"

/-- The severity of every diagnostic, that of an error. -/
def severity : Nat := 1

/-- The message of a diagnostic with its first suggestion in parentheses. -/
def messageOf (diagnostic : Diagnostic) : Text :=
  match diagnostic.suggestions with
  | [] => diagnostic.message
  | suggestion :: _ => diagnostic.message ++ " (" ++ suggestion.message ++ ")"

/-- The diagnostic of a span of a text; a span has at least one byte, unless the text ends. -/
def ofDiagnostic (text : Text) (diagnostic : Diagnostic) : EditorDiagnostic :=
  let offset := diagnostic.position.offset
  let stop := min (text.length : Int) (offset + max 1 diagnostic.length)
  { range := ⟨.ofOffset text offset.toNat, .ofOffset text stop.toNat⟩
    code := some diagnostic.code
    message := messageOf diagnostic }

/-- The diagnostics of a text whose scan gave a failure or none. -/
def ofFailure (text : Text) : Option Failure → List EditorDiagnostic
  | none => []
  | some failure =>
    match Diagnostic.ofFailure? failure with
    | some diagnostic => [ofDiagnostic text diagnostic]
    | none => [{ message := failure.message }]

end EditorDiagnostic

end Aml
