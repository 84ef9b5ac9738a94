import Aml.Diagnostic.Basic
import Aml.Text.Paint

/-!
# Reports

A report shows a diagnostic with the source line it is about and carets under its span, followed
by its suggestions, notes and help. Line numbers have at least three columns, and all other lines
are indented alike. Colour adds control sequences and nothing else.
-/
namespace Aml

namespace Level

/-- The attributes a level is painted with. -/
def attributes : Level → List Attribute
  | .warning => [.yellow, .bold]
  | .note => [.blue, .bold]
  | _ => [.red, .bold]

end Level

/-- A source under a name, and whether its reports are coloured. -/
structure Reporter where
  filename : Text
  source : Text
  color : Bool := false

namespace Reporter

/-- The source line with a number. -/
def line? (reporter : Reporter) : Int → Option Text
  | .ofNat (number + 1) => reporter.source.lines[number]?
  | _ => none

/-- The caret line under a span: spaces up to its column, then at least one caret. -/
def marker (reporter : Reporter) (diagnostic : Diagnostic) : Text :=
  let carets := if diagnostic.length ≤ 0 then 1 else diagnostic.length.toNat
  Text.spaces (diagnostic.position.column - 1).toNat
    ++ paint reporter.color diagnostic.level.attributes (Text.repeated 94 carets)

/-- The first line of a report: level, code if there is one, and message. -/
def headline (reporter : Reporter) (diagnostic : Diagnostic) : Text :=
  let level := paint reporter.color diagnostic.level.attributes diagnostic.level.name
  let code : Text := if diagnostic.code = [] then "" else "[" ++ diagnostic.code ++ "]"
  level ++ code ++ ": " ++ diagnostic.message

/-- The lines of one suggestion; the first one is labelled. -/
def suggestionLines (reporter : Reporter) (indent : Text) (first : Bool)
    (suggestion : Suggestion) : List Text :=
  let hint := paint reporter.color [.cyan]
  let label : Text := if first then "help" else "    "
  let replacement : List Text := if suggestion.replacement = [] then []
    else [indent ++ " " ++ hint "│" ++ " " ++ hint suggestion.replacement]
  (indent ++ " " ++ hint label ++ " " ++ suggestion.message) :: replacement

/-- The lines of all suggestions. -/
def adviceLines (reporter : Reporter) (indent : Text) : List Suggestion → List Text
  | [] => []
  | suggestion :: rest =>
    reporter.suggestionLines indent true suggestion
      ++ rest.flatMap (reporter.suggestionLines indent false)

/-- The lines of a report. -/
def reportLines (reporter : Reporter) (diagnostic : Diagnostic) : List Text :=
  let position := diagnostic.position
  let number := Text.ofInt position.line
  let width := max 3 number.length
  let indent := Text.spaces width
  let bar := paint reporter.color [.faint] "│"
  let arrow := paint reporter.color [.faint] "-->"
  let excerpt : List Text := match reporter.line? position.line with
    | some line =>
      [paint reporter.color [.bold] (Text.padLeft width number) ++ " " ++ bar ++ " " ++ line,
       indent ++ " " ++ bar ++ " " ++ reporter.marker diagnostic]
    | none => []
  let note (text : Text) : Text :=
    indent ++ " " ++ bar ++ " " ++ paint reporter.color [.blue] "note:" ++ " " ++ text
  let help : List Text := if diagnostic.help = [] then []
    else [indent ++ " " ++ bar ++ " " ++ paint reporter.color [.green] "help:" ++ " "
      ++ diagnostic.help]
  [reporter.headline diagnostic,
   indent ++ " " ++ arrow ++ " " ++ reporter.filename ++ ":" ++ position.render,
   indent ++ " " ++ bar]
    ++ excerpt ++ reporter.adviceLines indent diagnostic.suggestions
    ++ diagnostic.notes.map note ++ help ++ [[]]

/-- The report of a diagnostic: its lines, each ended by a newline. -/
def report (reporter : Reporter) (diagnostic : Diagnostic) : Text :=
  (reporter.reportLines diagnostic).flatMap fun line => line ++ [Text.newline]

end Reporter

end Aml
