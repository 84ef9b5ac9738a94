import Mathlib
import Aml.Proofs.Editor.Session
import Aml.Proofs.Scan.Lossless
import Aml.Proofs.Text.Utf8

/-!
# Range edits stay inside texts

An editor may send any range: its end may come before its start, its lines and characters may lie
beyond the text, and it may point between the two code units of a character. Walking to a position
stops on a boundary between characters all the same (`EditorPosition.indexIn_isBoundary`), because
it leads from the start of a line over whole characters, or back to the start of the text. So a
range edit cuts a text on boundaries only, and well-formed texts stay well-formed through every run
of a session (`Session.edits_contained`).
-/
namespace Aml

namespace Text

variable {text : Text} {offset : Nat}

/-- The start of a text is a boundary. -/
theorem isBoundary_zero (text : Text) : text.IsBoundary 0 :=
  ⟨[], text.characters, rfl, rfl⟩

/-- A boundary lies in the text. -/
theorem IsBoundary.le_length (boundary : text.IsBoundary offset) : offset ≤ text.length := by
  obtain ⟨before, after, whole, rfl⟩ := boundary
  have sized := congrArg List.length (eq_append_of_characters whole)
  rw [List.length_append] at sized
  omega

/-- A boundary of the end of a text is one of the whole text, when no character reaches across the
seam. -/
theorem IsBoundary.of_right {above rest : Text} (separate : Separate above rest)
    (boundary : rest.IsBoundary offset) : IsBoundary (above ++ rest) (above.length + offset) := by
  obtain ⟨before, after, whole, rfl⟩ := boundary
  refine ⟨above.characters ++ before, after, ?_, ?_⟩
  · rw [characters_append separate, whole, List.append_assoc]
  · rw [ofCharacters_append, ofCharacters_characters, List.length_append]

/-- The bytes before an offset are a slice of the text. -/
theorem slice?_take (inside : offset ≤ text.length) :
    text.slice? 0 offset = some (text.take offset) := by
  have sliced := slice?_segment [] (text.take offset) (text.drop offset)
  rwa [List.nil_append, List.take_append_drop, List.length_take_of_le inside, List.length_nil,
    Nat.cast_zero, Int.zero_add] at sliced

/-- The bytes from an offset on are a slice of the text. -/
theorem slice?_drop (inside : offset ≤ text.length) :
    text.slice? offset text.length = some (text.drop offset) := by
  have sliced := slice?_segment (text.take offset) (text.drop offset) []
  have sized : (offset : Int) + (text.drop offset).length = text.length := by
    rw [List.length_drop]
    omega
  rwa [List.append_nil, List.take_append_drop, List.length_take_of_le inside, sized] at sliced

end Text

/-! ## Walking to a position -/

namespace EditorPosition

open Text

/-- Walking over lines leads to the start of a line: nothing has been read, or a newline has been
read last. -/
theorem lineStart?_split {text rest : Text} {line index start : Nat}
    (walked : lineStart? text line index = some (start, rest)) :
    ∃ above : Text, text = above ++ rest ∧ start = index + above.length ∧
      above.getLast? = if line = 0 then none else some newline := by
  induction text generalizing line index with
  | nil =>
    cases line with
    | zero =>
      obtain ⟨rfl, rfl⟩ : index = start ∧ [] = rest := by simpa [lineStart?] using walked
      exact ⟨[], rfl, rfl, rfl⟩
    | succ line => simp [lineStart?] at walked
  | cons byte tail ih =>
    cases line with
    | zero =>
      obtain ⟨rfl, rfl⟩ : index = start ∧ byte :: tail = rest := by
        simpa [lineStart?] using walked
      exact ⟨[], rfl, rfl, rfl⟩
    | succ line =>
      rw [lineStart?] at walked
      by_cases ends : byte = newline
      · rw [if_pos ends] at walked
        obtain ⟨above, rfl, rfl, last⟩ := ih walked
        refine ⟨byte :: above, rfl, by rw [List.length_cons]; omega, ?_⟩
        rw [List.getLast?_cons, last, if_neg (Nat.succ_ne_zero line)]
        split
        · rw [Option.getD_none, ends]
        · rw [Option.getD_some]
      · rw [if_neg ends] at walked
        obtain ⟨above, rfl, rfl, last⟩ := ih walked
        refine ⟨byte :: above, rfl, by rw [List.length_cons]; omega, ?_⟩
        rw [List.getLast?_cons, last, if_neg (Nat.succ_ne_zero line), Option.getD_some]

/-- Walking over code units leads past whole characters, or back to the start of the text. -/
theorem unitIndex_split (characters : List Character) (units index : Nat) :
    unitIndex characters units index = 0 ∨
      ∃ front back, characters = front ++ back ∧
        unitIndex characters units index = index + (ofCharacters front).length := by
  fun_induction unitIndex characters units index with
  | case1 characters => exact .inr ⟨[], characters, rfl, rfl⟩
  | case2 => exact .inl rfl
  | case3 character rest => exact .inr ⟨[], character :: rest, rfl, rfl⟩
  | case4 character rest => exact .inr ⟨[], character :: rest, rfl, rfl⟩
  | case5 character rest index _ _ units ih
  | case6 character rest index units _ _ ih =>
    -- The character that is passed here comes before those that the rest of the walk passes.
    rcases ih with back | ⟨front, back, rfl, reached⟩
    · exact .inl back
    · refine .inr ⟨character :: front, back, rfl, ?_⟩
      rw [reached, ofCharacters_cons, List.length_append, Nat.add_assoc]

/-- Every position of an editor is taken for a boundary of the text. -/
theorem indexIn_isBoundary (position : EditorPosition) (text : Text) :
    text.IsBoundary (position.indexIn text) := by
  unfold indexIn
  split
  case h_1 => exact isBoundary_zero text
  case h_2 start rest walked =>
    obtain ⟨above, rfl, rfl, last⟩ := lineStart?_split walked
    have separate : Separate above rest := by
      refine .inl fun byte ends => ?_
      rw [last] at ends
      split at ends
      · contradiction
      · cases ends
        decide
    rcases unitIndex_split rest.characters position.character.toNat (0 + above.length)
      with back | ⟨front, back, whole, reached⟩
    · rw [back]
      exact isBoundary_zero _
    · rw [reached, Nat.zero_add]
      exact IsBoundary.of_right separate ⟨front, back, whole, rfl⟩

end EditorPosition

/-! ## Edits of well-formed texts -/

/-- The text that a change brings in. -/
def Change.replacement? : Change → Option Text
  | .whole replacement | .edit _ replacement => some replacement
  | .unknown => none

/-- The texts that a request brings in for a document. -/
def Request.texts : Request → List Text
  | .opened _ text => [text]
  | .changed _ changes => changes.filterMap Change.replacement?
  | _ => []

/-- A range edit that brings in a well-formed text keeps a text well-formed. -/
theorem EditorRange.isUtf8_replace (range : EditorRange) {text replacement : Text}
    (formed : text.isUtf8 = true) (sent : replacement.isUtf8 = true) :
    (range.replace text replacement).isUtf8 = true := by
  have front := Text.isUtf8_cut formed (range.start.indexIn_isBoundary text)
  have back := Text.isUtf8_cut formed (range.stop.indexIn_isBoundary text)
  exact Text.isUtf8_append (Text.isUtf8_append front.1 sent) back.2

/-- A change that brings in a well-formed text, if any, keeps a text well-formed. -/
theorem Change.isUtf8_apply {change : Change} {text : Text} (formed : text.isUtf8 = true)
    (sent : ∀ replacement ∈ change.replacement?, replacement.isUtf8 = true) :
    (change.apply text).isUtf8 = true := by
  cases change with
  | whole replacement => exact sent replacement rfl
  | edit range replacement =>
    cases range with
    | none => exact sent replacement rfl
    | some range => exact range.isUtf8_replace formed (sent replacement rfl)
  | unknown => exact formed

/-- Changes that bring in well-formed texts keep a text well-formed. -/
theorem Change.isUtf8_foldl {changes : List Change} {text : Text} (formed : text.isUtf8 = true)
    (sent : ∀ replacement ∈ changes.filterMap replacement?, replacement.isUtf8 = true) :
    (changes.foldl (fun text change => change.apply text) text).isUtf8 = true := by
  induction changes generalizing text with
  | nil => exact formed
  | cons change rest ih =>
    refine ih (isUtf8_apply formed fun replacement brought => ?_) fun replacement brought => ?_
    · exact sent replacement (List.mem_filterMap.mpr ⟨change, List.mem_cons_self, brought⟩)
    · obtain ⟨other, member, same⟩ := List.mem_filterMap.mp brought
      exact sent replacement
        (List.mem_filterMap.mpr ⟨other, List.mem_cons_of_mem change member, same⟩)

/-- A request that brings in well-formed texts leaves a document well-formed. -/
theorem Request.isUtf8_effect {request : Request} {name : Text} {before : Option Text}
    (formed : ∀ text ∈ before, text.isUtf8 = true)
    (sent : ∀ text ∈ request.texts, text.isUtf8 = true) :
    ∀ text ∈ request.effect name before, text.isUtf8 = true := by
  cases request with
  | handshake | initialized | shutdown | setTrace | completion | highlights => exact formed
  | opened other fresh =>
    rw [effect]
    split
    · rintro _ ⟨⟩
      exact sent fresh (List.mem_singleton_self fresh)
    · exact formed
  | closed other =>
    rw [effect]
    split
    · simp
    · exact formed
  | changed other changes =>
    rw [effect]
    split
    · intro text changed
      obtain ⟨stored, held, rfl⟩ := Option.map_eq_some_iff.mp changed
      exact Change.isUtf8_foldl (formed stored held) sent
    · exact formed

namespace Session

/-- Requests that bring in well-formed texts leave every document well-formed. -/
theorem isUtf8_after {session : Session} {requests : List (Bool × Request)} {name : Text}
    (formed : ∀ text ∈ session.documents.get? name, text.isUtf8 = true)
    (sent : ∀ step ∈ requests, ∀ text ∈ step.2.texts, text.isUtf8 = true) :
    ∀ text ∈ (session.after requests).documents.get? name, text.isUtf8 = true := by
  induction requests generalizing session with
  | nil => exact formed
  | cons step rest ih =>
    obtain ⟨first, later⟩ := List.forall_mem_cons.mp sent
    apply ih _ later
    rw [get?_answer]
    exact Request.isUtf8_effect formed first

/-- No range edit can break a document. Whatever text is open and whatever range is sent, both ends
of the range are taken for boundaries between characters in the text, and the edit puts the new
text between two slices of it. So after every run of requests in which all texts received are
well-formed, every stored document is well-formed. -/
theorem edits_contained :
    (∀ (text replacement : Text) (range : EditorRange),
      text.IsBoundary (range.start.indexIn text) ∧ text.IsBoundary (range.stop.indexIn text) ∧
      ∃ front back, text.slice? 0 (range.start.indexIn text) = some front ∧
        text.slice? (range.stop.indexIn text) text.length = some back ∧
        (Change.edit (some range) replacement).apply text = front ++ replacement ++ back) ∧
    ∀ (scanner : Scanner) (requests : List (Bool × Request)),
      (∀ step ∈ requests, ∀ received ∈ step.2.texts, received.isUtf8 = true) →
      ∀ name text, (reached scanner requests).documents.get? name = some text →
        text.isUtf8 = true := by
  constructor
  · intro text replacement range
    have start := range.start.indexIn_isBoundary text
    have stop := range.stop.indexIn_isBoundary text
    exact ⟨start, stop, _, _, Text.slice?_take start.le_length, Text.slice?_drop stop.le_length,
      rfl⟩
  · intro scanner requests sent name text stored
    have empty : ∀ text ∈ (Session.mk scanner {}).documents.get? name, text.isUtf8 = true := by
      rintro _ ⟨⟩
    exact isUtf8_after empty sent text stored

/-- A range that starts at the end of a character of two code units and ends between them: the bytes
between its ends stay on both sides of the new text. -/
theorem edits_contained_backwards :
    (∀ step ∈ [(true, Request.opened [117] [97, 240, 159, 152, 128, 10, 98]),
        (true, .changed [117] [.edit (some ⟨⟨0, 3⟩, ⟨0, 2⟩⟩) [195, 169], .unknown])],
      ∀ received ∈ step.2.texts, received.isUtf8 = true) ∧
      (reached (.language .empty)
        [(true, .opened [117] [97, 240, 159, 152, 128, 10, 98]),
          (true, .changed [117] [.edit (some ⟨⟨0, 3⟩, ⟨0, 2⟩⟩) [195, 169], .unknown])]
        ).documents.get? [117] =
          some [97, 240, 159, 152, 128, 195, 169, 240, 159, 152, 128, 10, 98] ∧
      Text.isUtf8 [97, 240, 159, 152, 128, 195, 169, 240, 159, 152, 128, 10, 98] = true := by
  have sent : ∀ step ∈ [(true, Request.opened [117] [97, 240, 159, 152, 128, 10, 98]),
      (true, .changed [117] [.edit (some ⟨⟨0, 3⟩, ⟨0, 2⟩⟩) [195, 169], .unknown])],
      ∀ received ∈ step.2.texts, received.isUtf8 = true := by decide
  have stored : (reached (.language .empty)
      [(true, .opened [117] [97, 240, 159, 152, 128, 10, 98]),
        (true, .changed [117] [.edit (some ⟨⟨0, 3⟩, ⟨0, 2⟩⟩) [195, 169], .unknown])]
      ).documents.get? [117] =
        some [97, 240, 159, 152, 128, 195, 169, 240, 159, 152, 128, 10, 98] := rfl
  exact ⟨sent, stored, edits_contained.2 _ _ sent [117] _ stored⟩

end Session

end Aml
