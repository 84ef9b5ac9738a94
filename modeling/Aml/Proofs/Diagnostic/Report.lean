import Mathlib
import Aml.Diagnostic.Report
import Aml.Proofs.Editor.Diagnostic
import Aml.Proofs.Scan.Failure
import Aml.Proofs.Scan.LogicalLine
import Aml.Proofs.Text.Line

/-!
# Reports point at the error

A report splits its source at newlines, and the scan has counted lines and columns piece by piece.
The line that stands between two newlines has the number of the newlines above it
(`Text.LineOf.getElem?_lines`). A place of a source stands on such a line, whose characters are
those before the place and those ahead of it (`Text.Place.lineOf`). So the line number of a lexical
error finds its line, the column counts the characters before it there, and the carets stand under
the characters that the error is about (`Scanner.Ends.marked`).
-/
namespace Aml

open Text

/-! ## The line of a place -/

/-- A line of a text, between the newlines around it, with what stands above and below it. -/
structure Text.LineOf (text above line below : Text) : Prop where
  whole : text = above ++ (line ++ below)
  inline : newline ∉ line
  /-- The line starts the text or follows a newline. -/
  starts : ∀ byte ∈ above.getLast?, byte = newline
  /-- The line ends the text or is followed by a newline. -/
  stops : ∀ byte ∈ below.head?, byte = newline

/-- The number of a line is that of the newlines above it. -/
theorem Text.LineOf.getElem?_lines {text above line below : Text}
    (lineOf : text.LineOf above line below) : text.lines[above.newlines]? = some line := by
  obtain ⟨rfl, inline, starts, stops⟩ := lineOf
  induction above using induction_on_lines with
  | last front single =>
    have none : front = [] := by
      by_contra present
      have ends := starts _ (List.getLast?_eq_some_getLast present)
      exact single (ends ▸ List.getLast_mem present)
    rw [none, newlines_nil, List.nil_append]
    cases below with
    | nil => rw [List.append_nil, lines_of_inline inline, List.getElem?_cons_zero]
    | cons byte rest =>
      rw [stops byte rfl, lines_cons inline, List.getElem?_cons_zero]
  | cons front rest single ih =>
    have counted : (front ++ newline :: rest).newlines = rest.newlines + 1 := by
      rw [newlines, List.count_append, List.count_eq_zero.mpr single, List.count_cons_self,
        Nat.zero_add]
      rfl
    have later : ∀ byte ∈ rest.getLast?, byte = newline := by
      intro byte last
      refine starts byte ?_
      rw [List.getLast?_append, List.getLast?_cons, last]
      rfl
    rw [counted, List.append_assoc, List.cons_append, lines_cons single,
      List.getElem?_cons_succ]
    exact ih later

namespace Text.Place

variable {text : Text} (place : text.Place)

/-- The characters after a place on its line. -/
def ahead : List Character :=
  place.after.takeWhile fun character => !character.isNewline

/-- The characters from the end of the line of a place on. -/
def below : List Character :=
  place.after.dropWhile fun character => !character.isNewline

/-- The line on which a place stands. -/
def fullLine : Text :=
  ofCharacters (place.line ++ place.ahead)

/-- The characters after a place end its line and go on below. -/
theorem ahead_append_below : place.ahead ++ place.below = place.after :=
  List.takeWhile_append_dropWhile

/-- The characters of a text are those above the line of a place, those of the line and those
below. -/
theorem whole_line :
    text.characters = place.above ++ ((place.line ++ place.ahead) ++ place.below) := by
  rw [List.append_assoc, place.ahead_append_below]
  exact place.whole

/-- The characters of the line of a place are those before it and those ahead. -/
theorem characters_fullLine : place.fullLine.characters = place.line ++ place.ahead :=
  characters_ofCharacters place.whole_line

/-- The offset of a place counts the bytes of the lines above and those before it on its line. -/
theorem offset_eq : place.offset =
    (ofCharacters place.above).length + (ofCharacters place.line).length := by
  rw [offset, before, List.length_append]

/-- A place that does not end its line stands before the last byte of it. -/
theorem length_lt_fullLine (goesOn : place.ahead ≠ []) :
    (ofCharacters place.line).length < place.fullLine.length := by
  obtain ⟨first, others, split⟩ := List.exists_cons_of_ne_nil goesOn
  have known := place.fullLine.sound_of_mem_characters
  rw [place.characters_fullLine] at known
  have width := List.length_pos_of_ne_nil (known first (by simp [split])).ne_nil
  rw [fullLine, ofCharacters_append, split, ofCharacters_cons, List.length_append,
    List.length_append]
  omega

/-- The line of a place has no newline in it. -/
theorem newline_notMem_fullLine : newline ∉ place.fullLine := by
  intro member
  have sound := place.fullLine.sound_of_mem_characters
  rw [place.characters_fullLine] at sound
  obtain ⟨character, listed, ends⟩ := newline_mem_ofCharacters sound member
  obtain before | ahead := List.mem_append.mp listed
  · exact place.single character before ends
  · have goesOn := List.mem_takeWhile_imp ahead
    rw [Character.isNewline, ends] at goesOn
    contradiction

/-- What stands below the line of a place is empty or starts with a newline. -/
theorem head?_below : ∀ byte ∈ (ofCharacters place.below).head?, byte = newline := by
  have known := text.sound_of_mem_characters
  rw [place.whole_line] at known
  have stopped : ∀ character ∈ place.below.head?, character.isNewline := by
    have stops := List.head?_dropWhile_not (fun character => !character.isNewline) place.after
    rw [← below] at stops
    intro character first
    rw [first] at stops
    simpa using stops
  cases split : place.below with
  | nil => simp
  | cons character rest =>
    have scalar := Character.isNewline_iff.mp (stopped character (by rw [split]; rfl))
    have spelled : character.bytes = [newline] := by
      rw [(known character (by simp [split])).ascii (by rw [scalar]; decide), scalar]
      rfl
    rw [ofCharacters_cons, spelled]
    rintro byte ⟨⟩
    rfl

/-- A place stands on a line of its text, between the lines above and below. -/
theorem lineOf :
    text.LineOf (ofCharacters place.above) place.fullLine (ofCharacters place.below) where
  whole := by
    rw [fullLine, ← ofCharacters_append, ← ofCharacters_append, ← place.whole_line,
      ofCharacters_characters]
  inline := place.newline_notMem_fullLine
  starts := place.getLast?_above
  stops := place.head?_below

/-- Characters after a place that end no line are ahead of it. -/
theorem prefix_ahead {taken rest : List Character} (split : place.after = taken ++ rest)
    (inline : ∀ character ∈ taken, character.isNewline = false) : taken <+: place.ahead := by
  rw [ahead, split, List.takeWhile_append_of_pos (by simpa using inline)]
  exact List.prefix_append _ _

end Text.Place

/-! ## What stands over the carets -/

/-- Carets under a line, after some columns, mark what an error is about: the character that is
illegal, or the characters of the lexeme that is no number. -/
inductive ScanError.MarkedIn (line : Text) : ScanError → (column carets : Nat) → Prop where
  | illegal {scalar : Char} {counter : Int} {position : Position} {column : Nat}
      (stands : line.characters[column]?.map Character.scalar = some scalar) :
      MarkedIn line (.illegalCharacter scalar counter position) column 1
  | malformed {lexeme : Text} {kind : Kind} {counter : Int} {position : Position}
      {cause : Option LiteralError} {column : Nat}
      (spelled : lexeme.characters <+: line.characters.drop column) :
      MarkedIn line (.malformedNumber lexeme kind counter position cause) column
        lexeme.characters.length

/-- The number of carets under the span of a diagnostic. -/
def Diagnostic.carets (diagnostic : Diagnostic) : Nat :=
  if diagnostic.length ≤ 0 then 1 else diagnostic.length.toNat

/-- A numeral has as many carets as bytes. -/
theorem Diagnostic.carets_malformedNumber {lexeme : Text} (present : 0 < lexeme.length)
    (kind : Kind) (position : Position) (cause : Option LiteralError) :
    (malformedNumber lexeme kind position cause).carets = lexeme.length := by
  have sized : (malformedNumber lexeme kind position cause).length = lexeme.length := rfl
  rw [carets, sized, if_neg (by omega), Int.toNat_natCast]

/-- A match of the language that fails has graphic characters of ASCII alone. -/
theorem Lexis.Takes.graphic_of_failed {rule : Rule} {taken rest : List Character}
    (takes : Takes rule taken rest) (sound : ∀ character ∈ taken, character.Sound)
    {table : KeywordTable} {line : Int} {position : Position} {error : ScanError}
    (failed : Piece.read ⟨rule, ofCharacters taken, position⟩ table line = .failed error) :
    ∀ character ∈ taken, 32 < character.scalar.toNat ∧ character.scalar.toNat < 127 := by
  apply takes.graphic
  · rw [Bool.eq_false_iff]
    intro suppressed
    cases failed.symm.trans (takes.read_of_suppress suppressed sound table line position)
  · rintro rfl
    obtain ⟨contents, converted⟩ := takes.convert_string sound
    cases failed.symm.trans (Piece.read_of_convert_ok rfl rfl rfl converted)

namespace Scanner

variable {table : KeywordTable} {source : Text} {tokens : List Token} {cursor : Cursor}
  {error : ScanError}

/-- The diagnostic of the error at which a scan of the language ends has the position of the cursor,
and as many carets as mark the error in the line of the cursor. -/
theorem Ends.marked (ends : (language table).Ends cursor (some error))
    (walk : (language table).Reaches (.start source) tokens cursor) {place : source.Place}
    (stands : place.after = cursor.rest) :
    ∃ diagnostic, Diagnostic.ofScanError? error = some diagnostic ∧
      diagnostic.position = cursor.position ∧ place.ahead ≠ [] ∧
      error.MarkedIn place.fullLine place.line.length diagnostic.carets := by
  have characters := place.characters_fullLine
  cases ends with
  | @illegal character rest position line stuck =>
    have goesOn : character.isNewline = false := by
      simpa [Character.isNewline] using ne_newline_of_stuck stuck
    have starts : place.after = [character] ++ rest := stands
    obtain ⟨others, split⟩ := place.prefix_ahead starts (by simpa using goesOn)
    refine ⟨_, rfl, rfl, by simp [← split], .illegal ?_⟩
    rw [characters, List.getElem?_append_right (le_refl _), Nat.sub_self, ← split]
    rfl
  | @failed _ rule taken rest _ split read =>
    obtain ⟨spelled, takes⟩ := Lexis.split?_language_iff.mp split
    have sound := walk.sound
    rw [spelled] at sound stands
    have within := (List.forall_mem_append.mp sound).1
    have graphic := takes.graphic_of_failed within read
    have inline : ∀ character ∈ taken, character.isNewline = false := by
      intro character member
      have bounds := graphic character member
      rw [Bool.eq_false_iff, Ne, Character.isNewline_iff]
      omega
    have front := place.prefix_ahead stands inline
    have decoded : (ofCharacters taken).characters = taken := by
      have whole : source.characters = (place.above ++ place.line) ++ (taken ++ rest) := by
        rw [place.whole, stands, List.append_assoc]
      exact characters_ofCharacters whole
    have sized : (ofCharacters taken).length = taken.length := by
      have ascii : ∀ character ∈ taken, character.scalar.toNat < 0x80 := by
        intro character member
        have bounds := graphic character member
        omega
      rw [ofCharacters_ascii within ascii, List.length_map]
    have positive := List.length_pos_of_ne_nil takes.present
    obtain ⟨form, rfl⟩ := takes.failure_eq within read
    refine ⟨_, rfl, rfl, ?_, ?_⟩
    · rintro empty
      rw [empty, List.prefix_nil] at front
      exact takes.present front
    · have counted : (ofCharacters taken).length = (ofCharacters taken).characters.length := by
        rw [decoded, sized]
      rw [Diagnostic.carets_malformedNumber (by omega), counted]
      refine .malformed ?_
      rw [decoded, characters, List.drop_left]
      exact front

end Scanner

/-! ## Reports -/

namespace Reporter

variable {reporter : Reporter} {diagnostic : Diagnostic} {line : Text}

/-- The width of the line numbers of a report. -/
def gutter (diagnostic : Diagnostic) : Nat :=
  max 3 (Text.ofInt diagnostic.position.line).length

/-- The lines of a report before the source line: the message, where it is about, and a blank one.
-/
def heading (reporter : Reporter) (diagnostic : Diagnostic) : List Text :=
  [reporter.headline diagnostic,
    spaces (gutter diagnostic) ++ " " ++ "-->" ++ " " ++ reporter.filename ++ ":" ++
      diagnostic.position.render,
    spaces (gutter diagnostic) ++ " " ++ "│"]

/-- Without colour a report has, after its heading, the source line of its number and under it the
carets, both after gutters of the same width. -/
theorem exists_report (plain : reporter.color = false)
    (found : reporter.line? diagnostic.position.line = some line) :
    ∃ rest, reporter.report diagnostic =
      (reporter.heading diagnostic ++
        [padLeft (gutter diagnostic) (ofInt diagnostic.position.line) ++ " " ++ "│" ++ " " ++ line,
          spaces (gutter diagnostic) ++ " " ++ "│" ++ " " ++
            (spaces (diagnostic.position.column - 1).toNat ++ repeated 94 diagnostic.carets)] ++
        rest).flatMap fun line => line ++ [newline] := by
  obtain ⟨filename, source, color⟩ := reporter
  obtain rfl : color = false := plain
  have regroup (first advice notes help last : List Text) :
      first ++ advice ++ notes ++ help ++ last =
        first ++ (advice ++ (notes ++ (help ++ last))) := by
    simp only [List.append_assoc]
  rw [report, reportLines, found]
  exact ⟨_, congrArg _ (regroup _ _ _ _ _)⟩

/-- Padding gives a number the width of the gutter. -/
theorem length_padLeft (diagnostic : Diagnostic) :
    (padLeft (gutter diagnostic) (ofInt diagnostic.position.line)).length = gutter diagnostic := by
  have enough : (ofInt diagnostic.position.line).length ≤ gutter diagnostic := le_max_right _ _
  rw [padLeft, spaces, repeated, List.length_append, List.length_replicate]
  omega

end Reporter

/-- The rendered report points at the error. With the rules of the language and any keyword table,
the error of a scan that fails has a diagnostic, and a reporter on the same source, under any name
and without colour, shows the line of the source that contains the offset of the error. Below it,
and past a gutter of the same width, stand as many spaces as there are columns before that of the
error and then carets: one, under the illegal character itself, or as many as the lexeme of a
malformed number has characters, which are those that the line goes on with. -/
theorem Scanner.report_points {table : Option KeywordTable} {scanner : Scanner}
    (built : Scanner.build table Rule.defaults = .ok scanner) {source : Text} {error : ScanError}
    (failed : scanner.scan source = .error error) (filename : Text) :
    ∃ diagnostic above line below column carets rest,
      (∀ failure : Failure, failure.scanError? = some error →
        Diagnostic.ofFailure? failure = some diagnostic) ∧
      error.position? = some diagnostic.position ∧
      source.LineOf above line below ∧
      diagnostic.position.line = above.newlines + 1 ∧
      above.length ≤ diagnostic.position.offset ∧
      diagnostic.position.offset < above.length + line.length ∧
      diagnostic.position.column = (column : Nat) + 1 ∧
      error.MarkedIn line column carets ∧
      (padLeft (Reporter.gutter diagnostic) (ofInt diagnostic.position.line)).length =
        Reporter.gutter diagnostic ∧
      (Reporter.mk filename source false).report diagnostic =
        ((Reporter.mk filename source false).heading diagnostic ++
          [padLeft (Reporter.gutter diagnostic) (ofInt diagnostic.position.line) ++
              " " ++ "│" ++ " " ++ line,
            spaces (Reporter.gutter diagnostic) ++ " " ++ "│" ++ " " ++
              (spaces column ++ repeated 94 carets)] ++
          rest).flatMap fun line => line ++ [newline] := by
  obtain ⟨words, _, rfl⟩ := language_of_built built
  obtain ⟨cursor, walk, _, ends⟩ := (language_scans words source).exists_reaches
  rw [scan_eq_error_iff.mp failed] at ends
  obtain ⟨front, whole, counted⟩ := walk.counted
  obtain ⟨place, split, stands⟩ := exists_place whole
  obtain ⟨diagnostic, made, placed, goesOn, marked⟩ := ends.marked walk stands
  have reached : diagnostic.position = ⟨1 + place.row, 1 + place.line.length, place.offset⟩ := by
    rw [placed, counted, ← split, ofCharacters_append]
    exact place.start_advance
  have found : Reporter.line? ⟨filename, source, false⟩ diagnostic.position.line =
      some place.fullLine := by
    rw [reached, Int.add_comm, place.row_eq]
    exact place.lineOf.getElem?_lines
  obtain ⟨rest, report⟩ := Reporter.exists_report rfl found
  have column : diagnostic.position.column = (place.line.length : Nat) + 1 := by
    rw [reached]
    exact Int.add_comm ..
  have offset : diagnostic.position.offset =
      (ofCharacters place.above).length + (ofCharacters place.line).length := by
    rw [reached, place.offset_eq]
    exact Nat.cast_add ..
  have skipped : (diagnostic.position.column - 1).toNat = place.line.length := by omega
  rw [skipped] at report
  refine ⟨diagnostic, _, _, _, place.line.length, diagnostic.carets, rest, ?_, ?_, place.lineOf,
    ?_, ?_, ?_, column, marked, Reporter.length_padLeft diagnostic, report⟩
  · intro failure rests
    rw [Diagnostic.ofFailure?, rests, Option.bind_some, made]
  · rw [placed]
    exact (ends.error_eq walk.sound).2
  · rw [reached, place.row_eq]
    exact Int.add_comm ..
  · omega
  · have within := place.length_lt_fullLine goesOn
    omega

/-- An illegal character on the second line of a source, behind the end of a string with a byte that
starts no character. -/
theorem Scanner.report_points_illegal :
    (language .empty).scan [34, 10, 255, 34, 36] = .error (.illegalCharacter '$' 1 ⟨2, 3, 4⟩) ∧
      ∃ diagnostic line rest,
        Diagnostic.ofFailure? (.scan (.illegalCharacter '$' 1 ⟨2, 3, 4⟩)) = some diagnostic ∧
        line.characters[2]?.map Character.scalar = some '$' ∧
        (Reporter.mk "u" [34, 10, 255, 34, 36] false).report diagnostic =
          ((Reporter.mk "u" [34, 10, 255, 34, 36] false).heading diagnostic ++
            [padLeft (Reporter.gutter diagnostic) (ofInt diagnostic.position.line) ++
                " " ++ "│" ++ " " ++ line,
              spaces (Reporter.gutter diagnostic) ++ " " ++ "│" ++ " " ++
                (spaces 2 ++ repeated 94 1)] ++
            rest).flatMap fun line => line ++ [newline] := by
  have failed : (language .empty).scan [34, 10, 255, 34, 36] =
      .error (.illegalCharacter '$' 1 ⟨2, 3, 4⟩) := by rfl
  obtain ⟨diagnostic, above, line, below, column, carets, rest, made, placed, _, _, _, _, counted,
    marked, _, report⟩ := report_points (build_defaults .empty) failed "u"
  rw [← Option.some.inj placed] at counted
  have third : (3 : Int) = column + 1 := counted
  obtain rfl : column = 2 := by omega
  cases marked with
  | illegal stands => exact ⟨failed, diagnostic, line, rest, made _ rfl, stands, report⟩

end Aml
