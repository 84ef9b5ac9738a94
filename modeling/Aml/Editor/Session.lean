import Aml.Editor.Diagnostic
import Aml.Editor.Highlight
import Aml.Scan.Stream

/-!
# Editor sessions

A session keeps the texts of the open documents and answers the requests of an editor. Opening or
changing a document publishes its diagnostics, which replace those published before. Changes of a
document apply one after the other. A request about a document that is not open fails and changes
nothing.
-/
namespace Aml

/-- The open documents: each name with its text. -/
structure Documents where
  entries : List (Text × Text) := []

namespace Documents

/-- The text of a document. -/
def get? (documents : Documents) (name : Text) : Option Text :=
  (documents.entries.find? fun entry => entry.1 = name).map Prod.snd

/-- The documents without one of them. -/
def erase (documents : Documents) (name : Text) : Documents :=
  ⟨documents.entries.filter fun entry => entry.1 ≠ name⟩

/-- The documents with the text of one of them set. -/
def insert (documents : Documents) (name text : Text) : Documents :=
  ⟨(name, text) :: (documents.erase name).entries⟩

end Documents

/-- One change of a document. -/
inductive Change where
  /-- The whole text is replaced. -/
  | whole (text : Text)
  /-- A range of the text is replaced, or all of it when no range is given. -/
  | edit (range : Option EditorRange) (text : Text)
  /-- A change of unknown form, which does nothing. -/
  | unknown

/-- The text after a change. -/
def Change.apply (change : Change) (text : Text) : Text :=
  match change with
  | .whole replacement => replacement
  | .edit none replacement => replacement
  | .edit (some range) replacement => range.replace text replacement
  | .unknown => text

/-- A request of an editor. -/
inductive Request where
  /-- The greeting, answered with what the session offers. -/
  | handshake
  | initialized
  | shutdown
  | setTrace (value : Text)
  | opened (name text : Text)
  | changed (name : Text) (changes : List Change)
  | closed (name : Text)
  | completion
  | highlights (name : Text)

/-- What a session offers to an editor. -/
structure Capabilities where
  /-- Whether the editor tells when documents open and close. -/
  openClose : Bool := true
  /-- How changes are sent; 1 stands for whole texts. -/
  changeKind : Nat := 1
  /-- Whether completions can be asked for more detail. -/
  resolvesCompletions : Bool := false
  /-- The names of the highlight types. -/
  highlightTypes : List String := HighlightType.legend.map HighlightType.name
  /-- The names of the highlight modifiers. -/
  highlightModifiers : List String := []
  /-- Whether whole documents are highlighted. -/
  highlightsWhole : Bool := true

/-- A word offered for completion, with the group it belongs to. -/
structure Completion where
  label : Text
  detail : Option Text

/-- The number that marks a completion as a keyword. -/
def Completion.keywordKind : Nat := 14

/-- Diagnostics sent to the editor for a document. -/
structure Publication where
  name : Text
  diagnostics : List EditorDiagnostic

/-- The method under which diagnostics are published. -/
def Publication.method : String := "textDocument/publishDiagnostics"

/-- What a request is answered with. -/
inductive Reply where
  | done
  | capabilities (capabilities : Capabilities)
  | trace (value : Text)
  | completions (items : List Completion)
  | highlights (data : List UInt32)
  /-- The document is not open. -/
  | notOpen (name : Text)

/-- The message of a failed request. -/
def Reply.failure? : Reply → Option Text
  | .notOpen name => some ("document " ++ name ++ " is not open")
  | _ => none

/-- The state of a session. -/
structure Session where
  scanner : Scanner
  documents : Documents := {}

namespace Session

/-- The stored trace value: one spelling is a common slip for another. -/
def traceValue (value : Text) : Text :=
  if value = "messages" then "message" else value

/-- The diagnostics of a text. -/
def diagnostics (session : Session) (text : Text) : List EditorDiagnostic :=
  EditorDiagnostic.ofFailure text ((session.scanner.scanUntilFailure text).2.map Failure.scan)

/-- What is published for a document, if the editor listens. -/
def publish (session : Session) (listening : Bool) (name text : Text) : List Publication :=
  if listening then [⟨name, session.diagnostics text⟩] else []

/-- Stores the text of a document and publishes its diagnostics. -/
def store (session : Session) (listening : Bool) (name text : Text) :
    Session × Reply × List Publication :=
  ({ session with documents := session.documents.insert name text }, .done,
    session.publish listening name text)

/-- What is offered for a spelling: the name of its group goes with it, if it has one. -/
def completion (session : Session) (spelling : Text) : Completion where
  label := spelling
  detail :=
    match session.scanner.table.group? spelling with
    | some group => if group.name = "" then none else some group.name
    | none => none

/-- The spellings of the keyword table. -/
def completions (session : Session) : List Completion :=
  session.scanner.table.spellings.map session.completion

/-- The highlight data of a text, up to its first error. -/
def highlightData (session : Session) (text : Text) : List UInt32 :=
  Highlight.encode (Highlight.ofTokens text (session.scanner.scanUntilFailure text).1)

/-- Answers a request; `listening` says whether the editor takes publications. -/
def answer (session : Session) (listening : Bool) (request : Request) :
    Session × Reply × List Publication :=
  match request with
  | .handshake => (session, .capabilities {}, [])
  | .initialized => (session, .done, [])
  | .shutdown => (session, .done, [])
  | .setTrace value => (session, .trace (traceValue value), [])
  | .opened name text => session.store listening name text
  | .changed name changes =>
    match session.documents.get? name with
    | none => (session, .notOpen name, [])
    | some text =>
      session.store listening name (changes.foldl (fun text change => change.apply text) text)
  | .closed name => ({ session with documents := session.documents.erase name }, .done, [])
  | .completion => (session, .completions session.completions, [])
  | .highlights name =>
    match session.documents.get? name with
    | none => (session, .notOpen name, [])
    | some text => (session, .highlights (session.highlightData text), [])

/-- Answers requests one after the other. -/
def answers (session : Session) : List (Bool × Request) → List (Reply × List Publication)
  | [] => []
  | (listening, request) :: rest =>
    let (session, reply, publications) := session.answer listening request
    (reply, publications) :: session.answers rest

end Session

end Aml
