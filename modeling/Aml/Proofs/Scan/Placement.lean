import Mathlib
import Aml.Proofs.Editor.Position
import Aml.Proofs.Scan.Interleaving
import Aml.Proofs.Scan.Lossless

/-!
# Places of tokens and errors

A scan counts its position piece by piece, and an editor recomputes its own from a byte offset. Both
name the same place. `Laid` says of the tokens of a scan at which characters of the source they
stand, in order and without overlap, and `Scanner.Scans.laid` carries it through a scan with any
rules: at each cursor the position is that of the characters before it, because a piece always
ends between characters. Then a place of the source belongs to every token and to every lexical
error, and its line, column and code units are those that the two positions count.
-/
namespace Aml

open Text

/-- A position counted up to some characters of a source goes on counting through the next ones. -/
theorem Position.advance_segment {source : Text} {before taken rest : List Character}
    (whole : source.characters = before ++ (taken ++ rest)) {position : Position} :
    (position.advance (ofCharacters before)).advance (ofCharacters taken) =
      position.advance (ofCharacters (before ++ taken)) := by
  rw [position.advance_append_of_meets (meets_ofCharacters whole), ofCharacters_append]

/-- The tokens after the first characters of a source: each one stands for characters that follow
those of the tokens before it, and its position is counted up to them. -/
inductive Laid (source : Text) : (before : List Character) → List Token → Prop where
  | nil (before : List Character) : Laid source before []
  | cons {before gap taken after : List Character} {token : Token} {tokens : List Token}
      (whole : source.characters = (before ++ gap) ++ (taken ++ after)) (present : taken ≠ [])
      (spelled : token.lexeme = ofCharacters taken)
      (placed : token.position = Position.start.advance (ofCharacters (before ++ gap)))
      (later : Laid source ((before ++ gap) ++ taken) tokens) :
      Laid source before (token :: tokens)

namespace Laid

variable {source : Text} {before : List Character} {tokens : List Token}

/-- Tokens that follow a gap follow what stands before the gap. -/
theorem of_append {gap : List Character} (laid : Laid source (before ++ gap) tokens) :
    Laid source before tokens := by
  cases laid with
  | nil => exact .nil before
  | @cons _ more taken after token tokens whole present spelled placed later =>
    rw [List.append_assoc before gap more] at whole placed later
    exact .cons whole present spelled placed later

/-- Every token stands for characters after the first ones, and its position is counted up to
them. -/
theorem exists_of_mem (laid : Laid source before tokens) :
    ∀ token ∈ tokens, ∃ gap taken after,
      source.characters = (before ++ gap) ++ (taken ++ after) ∧ taken ≠ [] ∧
      token.lexeme = ofCharacters taken ∧
      token.position = Position.start.advance (ofCharacters (before ++ gap)) := by
  induction laid with
  | nil => simp
  | @cons before gap taken after token tokens whole present spelled placed later ih =>
    refine List.forall_mem_cons.mpr ⟨⟨gap, taken, after, whole, present, spelled, placed⟩, ?_⟩
    intro other member
    obtain ⟨more, follows, rest, split, filled, same, reached⟩ := ih other member
    refine ⟨gap ++ taken ++ more, follows, rest, ?_, filled, same, ?_⟩
    · rw [split]
      simp only [List.append_assoc]
    · rw [reached]
      simp only [List.append_assoc]

end Laid

namespace Scanner

variable {scanner : Scanner} {source : Text}

/-- A scan that has counted its position up to the cursor lays out the tokens that it finds from
there on, and counts the position of its error in the same way. -/
theorem Scans.laid {characters before : List Character} {position : Position} {line final : Int}
    {tokens : List Token} {error : Option ScanError}
    (scans : scanner.Scans characters position line tokens final error)
    (whole : source.characters = before ++ characters)
    (counted : position = Position.start.advance (ofCharacters before)) :
    Laid source before tokens ∧
      ∀ fault ∈ error, ∀ place ∈ fault.position?, ∃ front after,
        source.characters = front ++ after ∧
          place = Position.start.advance (ofCharacters front) := by
  induction scans generalizing before with
  | finished position line => exact ⟨.nil before, by simp⟩
  | @illegal character rest position line stuck =>
    refine ⟨.nil before, ?_⟩
    rintro fault ⟨⟩ place ⟨⟩
    exact ⟨before, character :: rest, whole, counted⟩
  | @skipped characters taken rest rule position line next final tokens error split read scans ih =>
    obtain ⟨rfl, _, _⟩ := Registry.split?_eq_some_iff.mp split
    have moved : position.advance (ofCharacters taken) =
        Position.start.advance (ofCharacters (before ++ taken)) :=
      counted ▸ Position.advance_segment whole
    obtain ⟨laid, fails⟩ := ih (by rw [whole, List.append_assoc]) moved
    exact ⟨laid.of_append, fails⟩
  | @token characters taken rest rule position line final made tokens error split read scans ih =>
    obtain ⟨rfl, present, _⟩ := Registry.split?_eq_some_iff.mp split
    obtain ⟨lexeme, _, place⟩ := Piece.eq_of_read_token read
    have moved : position.advance (ofCharacters taken) =
        Position.start.advance (ofCharacters (before ++ taken)) :=
      counted ▸ Position.advance_segment whole
    obtain ⟨laid, fails⟩ := ih (by rw [whole, List.append_assoc]) moved
    rw [← List.append_nil before] at whole laid
    refine ⟨.cons whole present lexeme ?_ laid, fails⟩
    rw [List.append_nil]
    exact place.trans counted
  | @failed characters taken rest rule position line error split read =>
    refine ⟨.nil before, ?_⟩
    rintro fault ⟨⟩ place found
    refine ⟨before, characters, whole, ?_⟩
    exact (Piece.position_of_read_failed read place found).trans counted

/-- A scan of a source lays out the tokens that it finds, and the position of the error with which
its stream ends is counted in the same way. -/
theorem laid (scanner : Scanner) (source : Text) :
    Laid source [] (scanner.scanUntilFailure source).1 ∧
      ∀ fault ∈ scanner.lastError? source, ∀ place ∈ fault.position?, ∃ front after,
        source.characters = front ++ after ∧
          place = Position.start.advance (ofCharacters front) := by
  have counted : Position.start = Position.start.advance (ofCharacters []) :=
    (Position.advance_nil _).symm
  exact (scanner.scans source).laid rfl counted

end Scanner

/-! ## Agreement of the positions -/

/-- A position of a source and a position of an editor both name a place: the one counts bytes,
lines and characters, the other lines and code units, and the code units are those of the
characters that the column counts. -/
structure Text.Place.Names {text : Text} (place : text.Place) (position : Position)
    (editor : EditorPosition) : Prop where
  /-- The offset counts the bytes before the place. -/
  offset : position.offset = place.offset
  /-- The line counts the newlines among these bytes, from 1. -/
  line : position.line = 1 + newlines (text.take place.offset)
  /-- The column counts the characters before the place on its line, from 1. -/
  column : position.column = 1 + place.line.length
  /-- The editor counts the same lines, from 0. -/
  editorLine : (editor.line.toNat : Int) = position.line - 1
  /-- The editor counts the code units of the same characters, from 0. -/
  editorCharacter : editor.character.toNat = Character.totalUnits place.line

/-- The position counted up to a boundary between characters and the editor position of its offset
name the place there. -/
theorem Text.exists_place_names {source : Text} (short : source.length < 2 ^ 32)
    {position : Position} {front after : List Character}
    (whole : source.characters = front ++ after)
    (counted : position = Position.start.advance (ofCharacters front)) :
    ∃ place : source.Place,
      place.Names position (.ofOffset source position.offset.toNat) := by
  obtain ⟨place, split, _⟩ := exists_place whole
  have reached : position = ⟨1 + place.row, 1 + place.line.length, place.offset⟩ := by
    rw [counted, ← split, ofCharacters_append]
    exact place.start_advance
  obtain ⟨rows, columns⟩ := EditorPosition.toNat_ofOffset_place place short
  have same : position.offset.toNat = place.offset := by
    rw [reached]
    exact Int.toNat_natCast _
  rw [same]
  refine ⟨place, ?_, ?_, ?_, ?_, columns⟩
  · rw [reached]
  · rw [reached]
    rfl
  · rw [reached]
  · rw [reached, rows]
    exact (add_sub_cancel_left _ _).symm

/-- The two systems of positions agree. With any rules and any keyword table, to every token and to
every lexical error, of a scan or of a stream, of a source shorter than 2^32 bytes there belongs a
place of the source, between two of its characters, that is named both by the position counted
during the scan and by the editor position recomputed from its offset. -/
theorem Scanner.positions_agree (scanner : Scanner) {source : Text}
    (short : source.length < 2 ^ 32) :
    (∀ token ∈ (scanner.scanUntilFailure source).1, ∃ place : source.Place,
      place.Names token.position (.ofOffset source token.position.offset.toNat)) ∧
    ∀ error, (scanner.scan source = .error error ∨
        ∃ calls, .failed error ∈ (Stream.ask calls (scanner.stream source)).1) →
      ∀ position ∈ error.position?, ∃ place : source.Place,
        place.Names position (.ofOffset source position.offset.toNat) := by
  constructor
  · intro token member
    obtain ⟨_, _, _, whole, _, _, counted⟩ :=
      (scanner.laid source).1.exists_of_mem token member
    exact exists_place_names short whole counted
  · intro error failed position found
    have met : scanner.lastError? source = some error := by
      obtain scanned | ⟨calls, answered⟩ := failed
      · exact lastError?_of_scanUntilFailure (scan_eq_error_iff.mp scanned)
      · exact (failed_mem_ask_stream answered).2
    obtain ⟨front, after, whole, counted⟩ :=
      (scanner.laid source).2 error met position found
    exact exists_place_names short whole counted

/-- An illegal character after a string with a character of two code units, a newline and a byte
that starts no character. -/
theorem Scanner.positions_agree_malformed :
    (Scanner.language .empty).scan [34, 240, 159, 152, 128, 10, 255, 34, 32, 36] =
        .error (.illegalCharacter '$' 1 ⟨2, 4, 9⟩) ∧
      ∃ place : Text.Place [34, 240, 159, 152, 128, 10, 255, 34, 32, 36],
        place.Names ⟨2, 4, 9⟩ (.ofOffset [34, 240, 159, 152, 128, 10, 255, 34, 32, 36] 9) := by
  have failed : (Scanner.language .empty).scan [34, 240, 159, 152, 128, 10, 255, 34, 32, 36] =
      .error (.illegalCharacter '$' 1 ⟨2, 4, 9⟩) := by rfl
  exact ⟨failed, (positions_agree (.language .empty) (by decide)).2 _ (.inl failed) _ rfl⟩

end Aml
