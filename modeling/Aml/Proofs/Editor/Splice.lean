import Mathlib
import Aml.Proofs.Editor.Position
import Aml.Proofs.Editor.Session
import Aml.Proofs.Scan.Language

/-!
# Range edits splice exactly

An editor that replaces the bytes between two offsets of a document sends the editor positions of
the two offsets, as it sees the document at that moment. When both offsets fall between characters,
the session finds them again (`EditorPosition.indexIn_of_isBoundary`) and replaces exactly these
bytes (`Splice.apply_change`). Edits that follow each other, in one notification or in several, are
each read in the text that those before them leave, so the stored document is the one that the
editor shows.
-/
namespace Aml

/-- Walking from the editor position of a boundary between characters leads back to it. -/
theorem EditorPosition.indexIn_of_isBoundary {text : Text} {offset : Nat}
    (short : text.length < 2 ^ 32) (boundary : text.IsBoundary offset) :
    (ofOffset text offset).indexIn text = offset := by
  obtain ⟨place, rfl⟩ := Text.isBoundary_iff.mp boundary
  exact indexIn_ofOffset place short

/-- The replacement of the bytes between two offsets of a text. -/
structure Splice where
  start : Nat
  stop : Nat
  replacement : Text
  ordered : start ≤ stop

namespace Splice

/-- The text with the bytes between the offsets replaced. -/
def apply (splice : Splice) (text : Text) : Text :=
  text.take splice.start ++ splice.replacement ++ text.drop splice.stop

/-- The texts with one replacement after the other made. -/
def applyAll (text : Text) (splices : List Splice) : Text :=
  splices.foldl (fun text splice => splice.apply text) text

/-- A replacement can be named in a text: its offsets fall between characters, and the numbers of
editor positions are large enough. -/
structure Fits (splice : Splice) (text : Text) : Prop where
  short : text.length < 2 ^ 32
  start : text.IsBoundary splice.start
  stop : text.IsBoundary splice.stop

/-- Each replacement can be named in the text that those before it leave. -/
def AllFit : Text → List Splice → Prop
  | _, [] => True
  | text, splice :: rest => splice.Fits text ∧ AllFit (splice.apply text) rest

/-- The change that an editor sends for a replacement in a text. -/
def change (splice : Splice) (text : Text) : Change :=
  .edit (some ⟨.ofOffset text splice.start, .ofOffset text splice.stop⟩) splice.replacement

/-- The changes that an editor sends for replacements, each named in the text that those before it
leave. -/
def changes : Text → List Splice → List Change
  | _, [] => []
  | text, splice :: rest => splice.change text :: changes (splice.apply text) rest

/-- The notifications that an editor sends for a document, each with some of the replacements. -/
def requests (name : Text) : Text → List (Bool × List Splice) → List (Bool × Request)
  | _, [] => []
  | text, (listening, splices) :: rest =>
    (listening, .changed name (changes text splices)) ::
      requests name (applyAll text splices) rest

variable {text : Text}

/-- The change of a replacement makes it. -/
theorem apply_change {splice : Splice} (fits : splice.Fits text) :
    (splice.change text).apply text = splice.apply text := by
  have first := EditorPosition.indexIn_of_isBoundary fits.short fits.start
  have last := EditorPosition.indexIn_of_isBoundary fits.short fits.stop
  rw [change, Change.apply, EditorRange.replace, first, last, apply]

/-- The changes of replacements make them one after the other. -/
theorem foldl_changes {splices : List Splice} (fit : AllFit text splices) :
    (changes text splices).foldl (fun text change => change.apply text) text =
      applyAll text splices := by
  induction splices generalizing text with
  | nil => rfl
  | cons splice rest ih =>
    obtain ⟨first, later⟩ := fit
    rw [changes, List.foldl_cons, apply_change first, ih later]
    rfl

/-- Replacements that can be named in two parts, one after the other, can be named in each. -/
theorem AllFit.of_append {first second : List Splice} (fit : AllFit text (first ++ second)) :
    AllFit text first ∧ AllFit (applyAll text first) second := by
  induction first generalizing text with
  | nil => exact ⟨trivial, fit⟩
  | cons splice rest ih =>
    obtain ⟨head, tail⟩ := fit
    obtain ⟨within, later⟩ := ih tail
    exact ⟨⟨head, within⟩, later⟩

end Splice

namespace Session

variable {name text : Text}

/-- A notification of replacements leaves a document with them made. -/
theorem get?_answer_changes {session : Session} {splices : List Splice}
    (opened : session.documents.get? name = some text) (fit : Splice.AllFit text splices)
    (listening : Bool) :
    (session.answer listening (.changed name (Splice.changes text splices))).1.documents.get?
        name =
      some (Splice.applyAll text splices) := by
  rw [get?_answer, Request.effect, if_pos rfl, opened, Option.map_some, Splice.foldl_changes fit]

/-- Range edits splice exactly where the editor says. The offset of the editor position of a
boundary between characters is that boundary, in every text shorter than 2^32 bytes; and after any
notifications of replacements between such boundaries the stored document is the text with one
replacement after the other made. -/
theorem splices_exact :
    (∀ (text : Text) (offset : Nat), text.length < 2 ^ 32 → text.IsBoundary offset →
      (EditorPosition.ofOffset text offset).indexIn text = offset) ∧
    ∀ (session : Session) (name text : Text) (notifications : List (Bool × List Splice)),
      session.documents.get? name = some text →
      Splice.AllFit text (notifications.flatMap Prod.snd) →
      (session.after (Splice.requests name text notifications)).documents.get? name =
        some (Splice.applyAll text (notifications.flatMap Prod.snd)) := by
  refine ⟨fun text offset => EditorPosition.indexIn_of_isBoundary, ?_⟩
  intro session name text notifications opened fit
  induction notifications generalizing session text with
  | nil => exact opened
  | cons notification rest ih =>
    obtain ⟨listening, splices⟩ := notification
    rw [List.flatMap_cons] at fit ⊢
    obtain ⟨first, later⟩ := fit.of_append
    have stored := get?_answer_changes opened first listening
    rw [Splice.requests, after, ih _ _ stored later, Splice.applyAll, Splice.applyAll,
      Splice.applyAll, List.foldl_append]

/-- Two notifications: the first replaces a character of two code units and then a letter at the end
of the text, the second removes a newline and a byte that starts no character. -/
theorem splices_exact_astral :
    Splice.AllFit [97, 240, 159, 152, 128, 10, 255, 98]
        [⟨1, 5, [120], by decide⟩, ⟨4, 5, [240, 159, 152, 128], by decide⟩, ⟨2, 4, [], by decide⟩] ∧
      ((Session.mk (.language .empty) ⟨[([117], [97, 240, 159, 152, 128, 10, 255, 98])]⟩).after
          (Splice.requests [117] [97, 240, 159, 152, 128, 10, 255, 98]
            [(true, [⟨1, 5, [120], by decide⟩, ⟨4, 5, [240, 159, 152, 128], by decide⟩]),
              (false, [⟨2, 4, [], by decide⟩])])).documents.get? [117] =
        some [97, 120, 240, 159, 152, 128] := by
  have fit : Splice.AllFit [97, 240, 159, 152, 128, 10, 255, 98]
      [⟨1, 5, [120], by decide⟩, ⟨4, 5, [240, 159, 152, 128], by decide⟩, ⟨2, 4, [], by decide⟩] :=
    ⟨⟨by decide, by decide, by decide⟩, ⟨by decide, by decide, by decide⟩,
      ⟨by decide, by decide, by decide⟩, trivial⟩
  exact ⟨fit, splices_exact.2 _ [117] _ _ rfl fit⟩

end Session

end Aml
