import Mathlib
import Aml.Proofs.Editor.Highlight
import Aml.Proofs.Scan.Failure
import Aml.Proofs.Scan.Lines

/-!
# What precedes an error

A walk reads what it reads in the same way when something else follows it, as long as no match can
tell what follows (`Scanner.Reaches.with_rest`). A rule takes the same characters when the text after
them is cut short (`Lexis.Takes.truncate`), so a walk through a source is a whole scan of the
characters that it has read (`Scanner.Reaches.scans_front`), and a source that ends right before the
error of its scan is scanned without an error, as the tokens found before it
(`Scanner.scanUntilFailure_take`). The highlights of these tokens look only at the text before each
of them, so they do not change either (`Highlight.ofTokens_take`).
-/
namespace Aml

namespace Scanner

open Lexis

variable {table : KeywordTable} {source : Text} {tokens : List Token} {error : ScanError}

/-- A walk reads the characters between its ends in the same way when something else follows them, if
no match can tell what follows. -/
theorem Reaches.with_rest {first last : Cursor} {front : List Character}
    (walk : (language table).Reaches first tokens last) (whole : first.rest = front ++ last.rest)
    (back : List Character) (alike : ∀ {rule taken middle},
      Takes rule taken (middle ++ last.rest) → Takes rule taken (middle ++ back)) :
    (language table).Reaches ⟨front ++ back, first.position, first.line⟩ tokens
      ⟨back, last.position, last.line⟩ := by
  -- The induction is on the moves of the walk. The characters in front are those that the first
  -- move takes and those that the later moves read.
  induction walk generalizing front with
  | refl cursor =>
    have none : front = [] := List.self_eq_append_left.mp whole
    rw [none]
    exact .refl _
  | @step first next last made tokens moves later ih =>
    obtain ⟨middle, reads, _⟩ := later.segment
    have cut {rule : Rule} {taken rest : List Character} (left : rest = middle ++ last.rest)
        (split : (language table).registry.split? first.rest = some (rule, taken, rest)) :
        (language table).registry.split? (front ++ back) =
          some (rule, taken, middle ++ back) := by
      obtain ⟨spelled, takes⟩ := split?_language_iff.mp split
      have same : front = taken ++ middle := by
        refine List.append_cancel_right (whole.symm.trans ?_)
        rw [spelled, left, List.append_assoc]
      rw [left] at takes
      rw [same, List.append_assoc]
      exact split?_of_takes (alike takes)
    have onward := ih reads alike
    cases moves with
    | skipped split read =>
      have moved : (language table).Moves ⟨front ++ back, first.position, first.line⟩ [] _ :=
        .skipped (cut reads split) read
      exact .step moved onward
    | @token rule taken rest token split read =>
      have moved : (language table).Moves ⟨front ++ back, first.position, first.line⟩ [token] _ :=
        .token (cut reads split) read
      exact .step moved onward

/-- A walk reads the characters between its ends as it reads them when nothing follows. -/
theorem Reaches.scans_front {first last : Cursor} {front : List Character}
    (walk : (language table).Reaches first tokens last)
    (whole : first.rest = front ++ last.rest) :
    (language table).Scans front first.position first.line tokens last.line none := by
  have alone := walk.with_rest whole [] fun takes => by
    rw [List.append_nil]
    exact takes.truncate
  have scans := alone.scans (.finished last.position last.line)
  rwa [List.append_nil, List.append_nil] at scans

/-- A scan of the language that fails has an error with a place inside the source, and a scan of
what stands before this place finds the tokens found before the error. -/
theorem scanUntilFailure_take (failed : (language table).scan source = .error error) :
    ∃ position, error.position? = some position ∧
      0 ≤ position.offset ∧ position.offset ≤ source.length ∧
      (language table).scanUntilFailure (source.take position.offset.toNat) =
        (((language table).scanUntilFailure source).1, none) := by
  obtain ⟨cursor, walk, _, ends⟩ := (language_scans table source).exists_reaches
  rw [scan_eq_error_iff.mp failed] at ends
  obtain ⟨before, whole, bytes, _⟩ := walk.before
  have sized := congrArg List.length (Text.eq_append_of_characters whole)
  rw [List.length_append] at sized
  refine ⟨cursor.position, (ends.error_eq walk.sound).2, by omega, by omega, ?_⟩
  have alone := walk.scans_front whole
  rw [← Text.characters_ofCharacters_left whole] at alone
  rw [bytes, Int.toNat_natCast, Text.take_of_characters whole]
  exact alone.eq.1

end Scanner

/-! ## Highlights -/

/-- The editor position of an offset depends on nothing after it. -/
theorem EditorPosition.ofOffset_take (text : Text) {offset size : Nat} (within : offset ≤ size) :
    ofOffset (text.take size) offset = ofOffset text offset := by
  have same : (text.take size).take offset = text.take offset := by
    rw [List.take_take, Nat.min_eq_left within]
  rw [ofOffset, ofOffset, same]

/-- Tokens that lie in the first bytes of a text are highlighted there as they are in the whole
text. -/
theorem Highlight.ofTokens_take {text : Text} {size : Nat} {tokens : List Token}
    (laid : Laid (text.take size) [] tokens) :
    ofTokens (text.take size) tokens = ofTokens text tokens := by
  refine List.filterMap_congr fun token member => ?_
  have within : token.position.offset.toNat ≤ size := by
    obtain ⟨gap, taken, after, whole, _, _, placed⟩ := laid.exists_of_mem token member
    have sized := congrArg List.length (Text.eq_append_of_characters whole)
    rw [List.length_append, List.length_take] at sized
    rw [placed, Position.advance_offset]
    simp only [Position.start]
    omega
  rw [ofToken?, ofToken?, EditorPosition.ofOffset_take text within]

/-- What precedes a lexical error is untouched by it. With the rules of the language and any keyword
table, every source whose scan fails does so at a place of its own, and the text before this place
is scanned without an error as the very tokens that were found before the error. So an editor that
asks for the highlights of a broken document is answered as it is for the text before the error. -/
theorem Scanner.scan_before_error {table : Option KeywordTable} {scanner : Scanner}
    (built : Scanner.build table Rule.defaults = .ok scanner) {source : Text} {error : ScanError}
    (failed : scanner.scan source = .error error) :
    ∃ position, error.position? = some position ∧
      0 ≤ position.offset ∧ position.offset ≤ source.length ∧
      scanner.scan (source.take position.offset.toNat) =
        .ok (scanner.scanUntilFailure source).1 ∧
      ∀ (broken intact : Documents) (name title : Text), broken.get? name = some source →
        intact.get? title = some (source.take position.offset.toNat) →
        ∀ listening, ∃ data,
          Session.answer ⟨scanner, broken⟩ listening (.highlights name) =
            (⟨scanner, broken⟩, .highlights data, []) ∧
          Session.answer ⟨scanner, intact⟩ listening (.highlights title) =
            (⟨scanner, intact⟩, .highlights data, []) := by
  obtain ⟨words, _, rfl⟩ := language_of_built built
  obtain ⟨position, found, least, most, same⟩ := scanUntilFailure_take failed
  refine ⟨position, found, least, most, scan_eq_ok_iff.mpr same, ?_⟩
  intro broken intact name title opened kept listening
  have laid := ((language words).laid (source.take position.offset.toNat)).1
  rw [same] at laid
  have highlights : Session.highlightData ⟨language words, intact⟩
      (source.take position.offset.toNat) =
        Session.highlightData ⟨language words, broken⟩ source := by
    rw [Session.highlightData, Session.highlightData, same, Highlight.ofTokens_take laid]
  refine ⟨Session.highlightData ⟨language words, broken⟩ source, ?_, ?_⟩
  · rw [Session.answer, opened]
  · rw [Session.answer, kept]
    dsimp only
    rw [highlights]

/-- A name and a minus sign, and on the next line a number out of range. -/
theorem Scanner.scan_before_error_overflow :
    (language .empty).scan ("a -\n99999999999999999999" : String) =
        .error (.malformedNumber "99999999999999999999" (.operand .integer) 2 ⟨2, 1, 4⟩
          (some (.numeral .integer "99999999999999999999" .outOfRange))) ∧
      ∃ data,
        Session.answer ⟨language .empty, ⟨[("u", "a -\n99999999999999999999")]⟩⟩ true
          (.highlights "u") =
            (⟨language .empty, ⟨[("u", "a -\n99999999999999999999")]⟩⟩, .highlights data, []) ∧
        Session.answer ⟨language .empty, ⟨[("v", "a -\n")]⟩⟩ true (.highlights "v") =
          (⟨language .empty, ⟨[("v", "a -\n")]⟩⟩, .highlights data, []) := by
  have failed : (language .empty).scan ("a -\n99999999999999999999" : String) =
      .error (.malformedNumber "99999999999999999999" (.operand .integer) 2 ⟨2, 1, 4⟩
        (some (.numeral .integer "99999999999999999999" .outOfRange))) := by rfl
  obtain ⟨position, found, _, _, _, answers⟩ := scan_before_error (build_defaults .empty) failed
  obtain rfl := Option.some.inj found
  exact ⟨failed, answers _ _ "u" "v" rfl rfl true⟩

end Aml
