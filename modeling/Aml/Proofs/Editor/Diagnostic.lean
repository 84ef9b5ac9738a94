import Mathlib
import Aml.Editor.Diagnostic
import Aml.Proofs.Editor.Position
import Aml.Proofs.Scan.Failure

/-!
# Which text a diagnostic covers

A lexical error is about some bytes of the source: an illegal character or a numeral out of range
(`ScanError.Offends`). The editor shows it as one diagnostic whose range is computed from a byte
offset and a length in bytes. The length of a numeral is that of its lexeme, so the range delimits
it (`EditorDiagnostic.shows_malformed`). The length of an illegal character is taken to be one byte,
whatever its encoding. Cut off after that byte, the character is read as some other one with one
code unit (`EditorPosition.counts_lead`), so the range ends after the character if it has one code
unit, and inside it if it has two (`EditorDiagnostic.shows_illegal`).
-/
namespace Aml

open Text

/-! ## Positions inside a character -/

/-- The first character of a text is read from its first bytes. -/
theorem Text.exists_leads {text : Text} {character : Character} {rest : List Character}
    (read : text.characters = character :: rest) :
    ∃ tail, text = character.bytes ++ tail ∧ Leads character tail := by
  cases text with
  | nil => contradiction
  | cons byte others =>
    obtain ⟨tail, split, leads⟩ := leads_firstCharacter byte others
    rw [split, leads.characters] at read
    obtain ⟨rfl, _⟩ := List.cons.inj read
    exact ⟨tail, split, leads⟩

/-- A single byte has one code unit, whatever it is read as. -/
theorem Text.units_singleton (byte : UInt8) : Text.units [byte] = 1 := by
  have most : Text.units [byte] ≤ 1 := units_le_length [byte]
  obtain ⟨tail, split, leads⟩ := leads_firstCharacter byte []
  have least := Character.units_pos (firstCharacter byte [])
  rw [units_eq, split, leads.characters, Character.totalUnits, List.map_cons, List.sum_cons]
    at most ⊢
  omega

/-- The first byte of a character meets what stands before it between characters, also when it is
cut off from the rest of the character: it is then read as a character of its own. -/
theorem Text.meets_lead {text : Text} {before rest : List Character} {character : Character}
    {lead : UInt8} {more : Text} (whole : text.characters = before ++ character :: rest)
    (spelled : character.bytes = lead :: more) :
    Meets (ofCharacters before) [lead] := by
  have read : (ofCharacters (character :: rest)).characters = character :: rest :=
    characters_ofCharacters_right whole
  obtain ⟨tail, _, leads⟩ := exists_leads read
  have single : more = [] → Meets (ofCharacters before) [lead] := by
    rintro rfl
    have meets : Meets (ofCharacters before) (ofCharacters [character]) :=
      @meets_ofCharacters text before [character] rest whole
    rwa [ofCharacters_cons, ofCharacters_nil, List.append_nil, spelled] at meets
  have several (least : 0xC2 ≤ lead.toNat) : Meets (ofCharacters before) [lead] := by
    refine Separate.meets (.inr ?_)
    rintro _ ⟨⟩
    simp only [isContinuation, Bool.and_eq_false_iff, decide_eq_false_iff_not,
      UInt8.lt_iff_toNat_lt]
    refine .inr ?_
    simp only [UInt8.reduceToNat]
    omega
  cases leads with
  | stray => exact single (List.cons.inj spelled).2.symm
  | spelled spells =>
    cases spells with
    | one => exact single (List.cons.inj spelled).2.symm
    | two least =>
      obtain ⟨rfl, _⟩ := List.cons.inj spelled
      exact several least
    | three least | four least =>
      obtain ⟨rfl, _⟩ := List.cons.inj spelled
      exact several (by omega)

/-! ## Offsets that positions denote -/

/-- A position of an editor denotes an offset of a text: the offset falls between characters, and
the position counts the newlines before it and the code units before it on its line. -/
structure EditorPosition.Denotes (position : EditorPosition) (text : Text) (offset : Nat) :
    Prop where
  /-- No character reaches across the offset. -/
  boundary : text.IsBoundary offset
  line : position.line.toNat = newlines (text.take offset)
  character : position.character.toNat = (lastLine (text.take offset)).units

/-- The ends of a range denote the ends of some bytes of a text. -/
structure EditorRange.Delimits (range : EditorRange) (text : Text) (offset : Nat) (bytes : Text) :
    Prop where
  /-- The bytes stand in the text at the offset. -/
  found : bytes <+: text.drop offset
  start : range.start.Denotes text offset
  stop : range.stop.Denotes text (offset + bytes.length)

namespace EditorPosition

variable {text : Text} {before taken rest : List Character} {character : Character}

/-- The position of the end of the first characters of a text denotes it. -/
theorem ofOffset_denotes (short : text.length < 2 ^ 32)
    (whole : text.characters = before ++ rest) :
    (ofOffset text (ofCharacters before).length).Denotes text (ofCharacters before).length := by
  obtain ⟨rows, columns⟩ := toNat_ofOffset short (ofCharacters before).length
  exact ⟨⟨before, rest, whole, rfl⟩, rows, columns⟩

/-- Both before and after a character that ends no line the same newlines are counted, and after it
its code units are counted as well. -/
theorem counts_past (whole : text.characters = before ++ character :: rest)
    (inline : character.scalar ≠ '\n') :
    newlines (text.take (ofCharacters (before ++ [character])).length) =
        newlines (ofCharacters before) ∧
      (lastLine (text.take (ofCharacters (before ++ [character])).length)).units =
        (lastLine (ofCharacters before)).units + character.units := by
  have split : text.characters = (before ++ [character]) ++ rest := by simpa using whole
  have sound : character.Sound := text.sound_of_mem_characters character (by simp [whole])
  have single : (ofCharacters [character]).newlines = 0 := by
    refine List.count_eq_zero.mpr fun member => inline ?_
    exact sound.newline_mem_iff.mp (by simpa using member)
  have meets : Meets (ofCharacters before) (ofCharacters [character]) :=
    @meets_ofCharacters text before [character] rest whole
  have alone : (ofCharacters [character]).units = character.units := by
    have read : (ofCharacters [character]).characters = [character] :=
      @characters_ofCharacters text before [character] rest whole
    rw [units_eq, read]
    simp [Character.totalUnits]
  rw [take_of_characters split, ofCharacters_append]
  refine ⟨by rw [newlines_append, single, Nat.add_zero], ?_⟩
  rw [lastLine_append single, units_append meets.lastLine, alone]

/-- One byte into a character that ends no line, the same newlines are counted as before it and one
code unit more. -/
theorem counts_lead (whole : text.characters = before ++ character :: rest)
    (inline : character.scalar ≠ '\n') :
    newlines (text.take ((ofCharacters before).length + 1)) = newlines (ofCharacters before) ∧
      (lastLine (text.take ((ofCharacters before).length + 1))).units =
        (lastLine (ofCharacters before)).units + 1 := by
  have sound : character.Sound := text.sound_of_mem_characters character (by simp [whole])
  obtain ⟨lead, more, spelled⟩ := List.exists_cons_of_ne_nil sound.ne_nil
  have single : newlines [lead] = 0 := by
    refine List.count_eq_zero.mpr fun member => inline (sound.newline_mem_iff.mp ?_)
    rw [spelled, List.mem_singleton.mp member]
    exact List.mem_cons_self
  have cut : text.take ((ofCharacters before).length + 1) = ofCharacters before ++ [lead] := by
    conv_lhs => rw [eq_append_of_characters whole, ofCharacters_cons, spelled]
    simp [List.take_append]
  rw [cut]
  refine ⟨by rw [newlines_append, single, Nat.add_zero], ?_⟩
  rw [lastLine_append single, units_append (meets_lead whole spelled).lastLine, units_singleton]

/-- The position one byte into a character denotes the end of the character exactly when the
character has one code unit. -/
theorem ofOffset_lead_denotes_iff (short : text.length < 2 ^ 32)
    (whole : text.characters = before ++ character :: rest) (inline : character.scalar ≠ '\n') :
    (ofOffset text ((ofCharacters before).length + 1)).Denotes text
        ((ofCharacters before).length + character.bytes.length) ↔
      character.scalar.toNat < 0x10000 := by
  obtain ⟨rows, columns⟩ := toNat_ofOffset short ((ofCharacters before).length + 1)
  obtain ⟨sameRow, oneMore⟩ := counts_lead whole inline
  obtain ⟨pastRow, past⟩ := counts_past whole inline
  have reached : (ofCharacters (before ++ [character])).length =
      (ofCharacters before).length + character.bytes.length := by simp
  rw [sameRow] at rows
  rw [oneMore] at columns
  rw [reached] at pastRow past
  have narrow : character.units = 1 ↔ character.scalar.toNat < 0x10000 := by
    unfold Character.units
    split <;> simp [*]
  rw [← narrow]
  constructor
  · intro denotes
    have counted := denotes.character
    rw [columns, past] at counted
    omega
  · intro one
    refine ⟨⟨before ++ [character], rest, by simpa using whole, reached⟩, ?_, ?_⟩
    · rw [rows, pastRow]
    · rw [columns, past, one]

end EditorPosition

/-! ## Errors of the language -/

/-- The text of a source that an error is about, with its position: the bytes of the first
character there, or a numeral. -/
inductive ScanError.Offends (source : Text) : ScanError → Position → Text → Prop where
  | illegal {character : Char} {bytes : Text} {line : Int} {position : Position}
      (read : (Text.characters (source.drop position.offset.toNat)).head? =
        some ⟨character, bytes⟩) :
      Offends source (.illegalCharacter character line position) position bytes
  | malformed {lexeme : Text} {kind : Kind} {line : Int} {position : Position}
      {cause : Option LiteralError} (found : lexeme <+: source.drop position.offset.toNat) :
      Offends source (.malformedNumber lexeme kind line position cause) position lexeme

/-- A newline is never illegal. -/
theorem Scanner.ne_newline_of_stuck {table : KeywordTable} {character : Character}
    {rest : List Character}
    (stuck : (language table).registry.split? (character :: rest) = none) :
    character.scalar ≠ '\n' := by
  intro ends
  have first : character.isNewline := decide_eq_true ends
  have takes : Lexis.Takes Rule.newlineRun (character :: rest.takeWhile Character.isNewline)
      (rest.dropWhile Character.isNewline) :=
    .newlines (by simp) (List.forall_mem_cons.mpr ⟨first, fun _ => List.mem_takeWhile_imp⟩)
      (Lexis.stops_dropWhile _ _)
  have whole : (character :: rest.takeWhile Character.isNewline) ++
      rest.dropWhile Character.isNewline = character :: rest := by
    rw [List.cons_append, List.takeWhile_append_dropWhile]
  have split := @split?_of_takes table _ _ _ takes
  rw [whole] at split
  exact Option.some_ne_none _ (split.symm.trans stuck)

namespace EditorDiagnostic

variable {source : Text} {before taken rest : List Character}

/-- The diagnostic of a lexical error covers a span that lies within the source. -/
theorem ofFailure_range {error : ScanError} {diagnostic : Diagnostic}
    (lexical : Diagnostic.ofScanError? error = some diagnostic) {offset span : Nat}
    (placed : diagnostic.position.offset = offset) (sized : diagnostic.length = span)
    (present : 0 < span) (within : offset + span ≤ source.length) :
    ∃ shown, ofFailure source (some (.scan error)) = [shown] ∧
      shown.range = ⟨.ofOffset source offset, .ofOffset source (offset + span)⟩ := by
  refine ⟨ofDiagnostic source diagnostic, ?_, ?_⟩
  · simp [ofFailure, Diagnostic.ofFailure?, Failure.scanError?, lexical]
  · have first : (offset : Int).toNat = offset := Int.toNat_natCast offset
    have last : (min (source.length : Int) (offset + max 1 (span : Int))).toNat =
        offset + span := by
      omega
    simp only [ofDiagnostic, placed, sized, first, last]

/-- The bytes of a segment of the characters of a source are found after those before it. -/
theorem prefix_drop (whole : source.characters = before ++ (taken ++ rest)) :
    ofCharacters taken <+: source.drop (ofCharacters before).length := by
  have split := eq_append_of_characters whole
  have dropped : source.drop (ofCharacters before).length = ofCharacters (taken ++ rest) :=
    (congrArg (List.drop _) split).trans List.drop_left
  rw [dropped, ofCharacters_append]
  exact List.prefix_append _ _

/-- The diagnostic of an illegal character covers one byte, which is all of it to the editor exactly
when the character has one code unit. -/
theorem shows_illegal (short : source.length < 2 ^ 32) {character : Character}
    (whole : source.characters = before ++ character :: rest) (inline : character.scalar ≠ '\n')
    {position : Position} (placed : position.offset = (ofCharacters before).length) (line : Int) :
    ∃ shown, ofFailure source (some (.scan (.illegalCharacter character.scalar line position))) =
        [shown] ∧
      shown.range.start = .ofOffset source (ofCharacters before).length ∧
      (shown.range.Delimits source (ofCharacters before).length character.bytes ↔
        character.scalar.toNat < 0x10000) := by
  have within : (ofCharacters before).length + 1 ≤ source.length := by
    have total := congrArg List.length (eq_append_of_characters whole)
    have present := (source.sound_of_mem_characters character (by simp [whole])).ne_nil
    have sized := List.length_pos_of_ne_nil present
    rw [ofCharacters_cons, List.length_append, List.length_append] at total
    omega
  obtain ⟨shown, one, range⟩ :=
    @ofFailure_range source (.illegalCharacter character.scalar line position) _ rfl _ 1 placed rfl
      Nat.one_pos within
  have exact := EditorPosition.ofOffset_lead_denotes_iff short whole inline
  refine ⟨shown, one, by rw [range], ?_⟩
  rw [← exact]
  constructor
  · intro delimits
    have stop := delimits.stop
    rwa [range] at stop
  · intro stop
    refine ⟨?_, ?_, ?_⟩
    · simpa using @prefix_drop source before [character] rest whole
    · rw [range]
      exact EditorPosition.ofOffset_denotes short whole
    · rwa [range]

/-- The diagnostic of a malformed number covers exactly its lexeme. -/
theorem shows_malformed (short : source.length < 2 ^ 32)
    (whole : source.characters = before ++ (taken ++ rest)) (present : taken ≠ [])
    {position : Position} (placed : position.offset = (ofCharacters before).length) (kind : Kind)
    (line : Int) (cause : Option LiteralError) :
    ∃ shown, ofFailure source (some (.scan
        (.malformedNumber (ofCharacters taken) kind line position cause))) = [shown] ∧
      shown.range.start = .ofOffset source (ofCharacters before).length ∧
      shown.range.Delimits source (ofCharacters before).length (ofCharacters taken) := by
  have split : source.characters = (before ++ taken) ++ rest := by simpa using whole
  have reached : (ofCharacters (before ++ taken)).length =
      (ofCharacters before).length + (ofCharacters taken).length := by simp
  have within : (ofCharacters before).length + (ofCharacters taken).length ≤ source.length := by
    have total := congrArg List.length (eq_append_of_characters split)
    rw [List.length_append] at total
    omega
  have filled : 0 < (ofCharacters taken).length := by
    obtain ⟨first, others, rfl⟩ := List.exists_cons_of_ne_nil present
    have sound := source.sound_of_mem_characters first (by simp [whole])
    have sized := List.length_pos_of_ne_nil sound.ne_nil
    rw [ofCharacters_cons, List.length_append]
    omega
  obtain ⟨shown, one, range⟩ :=
    @ofFailure_range source (.malformedNumber (ofCharacters taken) kind line position cause) _ rfl
      _ _ placed rfl filled within
  refine ⟨shown, one, by rw [range], prefix_drop whole, ?_, ?_⟩
  · rw [range]
    exact EditorPosition.ofOffset_denotes short whole
  · rw [range, ← reached]
    exact EditorPosition.ofOffset_denotes short split

/-- What a diagnostic covers. When a scan of the language fails, exactly one diagnostic is shown. It
starts at the offset of the error, and its ends delimit exactly the text that the error is about,
unless this is an illegal character outside the basic plane: of such a character only one of two
code units is covered. The source is shorter than 2^32 bytes: lines and characters are numbers of 32
bits, which wrap around in a source that is longer. -/
theorem covers_offence {table : Option KeywordTable} {scanner : Scanner}
    (built : Scanner.build table Rule.defaults = .ok scanner) (short : source.length < 2 ^ 32)
    {error : ScanError} (failed : scanner.scan source = .error error) :
    ∃ shown position bytes, ofFailure source (some (.scan error)) = [shown] ∧
      error.Offends source position bytes ∧
      shown.range.start = .ofOffset source position.offset.toNat ∧
      shown.range.start.Denotes source position.offset.toNat ∧
      (shown.range.Delimits source position.offset.toNat bytes ↔
        ∀ character line, error = .illegalCharacter character line position →
          character.toNat < 0x10000) := by
  obtain ⟨words, _, rfl⟩ := Scanner.language_of_built built
  have scans := Scanner.language_scans words source
  rw [Scanner.scan_eq_error_iff.mp failed] at scans
  obtain ⟨cursor, walk, _, ends⟩ := scans.exists_reaches
  obtain ⟨before, whole, placed, _⟩ := walk.before
  obtain ⟨_, remaining⟩ := walk.drop_offset
  have offset : cursor.position.offset.toNat = (ofCharacters before).length := by omega
  have denotes := EditorPosition.ofOffset_denotes short whole
  cases ends with
  | @illegal character rest position line stuck =>
    obtain ⟨shown, one, start, exact⟩ :=
      shows_illegal short whole (Scanner.ne_newline_of_stuck stuck) placed line
    have offends : ScanError.Offends source
        (.illegalCharacter character.scalar line position) position character.bytes :=
      .illegal (by rw [remaining]; rfl)
    refine ⟨shown, position, character.bytes, one, offends, by rw [start, offset], ?_, ?_⟩
    · rwa [start, offset]
    rw [offset, exact]
    constructor
    · rintro narrow _ _ ⟨⟩
      exact narrow
    · intro narrow
      exact narrow _ _ rfl
  | @failed _ rule taken rest _ split read =>
    obtain ⟨spelled, takes⟩ := Lexis.split?_language_iff.mp split
    have sound := walk.sound
    rw [spelled] at whole sound
    obtain ⟨form, rfl⟩ := takes.failure_eq (List.forall_mem_append.mp sound).1 read
    obtain ⟨shown, one, start, delimits⟩ := shows_malformed short whole takes.present placed
      form.kind cursor.line (some (.numeral form (ofCharacters taken) .outOfRange))
    rw [← offset] at start delimits
    refine ⟨shown, cursor.position, ofCharacters taken, one, .malformed delimits.found, start,
      delimits.start, ?_⟩
    simp [delimits]

/-- After a string with a character of two code units, an illegal character of two bytes. -/
theorem covers_offence_accented :
    (Scanner.language .empty).scan [34, 240, 159, 152, 128, 34, 32, 195, 169] =
        .error (.illegalCharacter 'é' 1 ⟨1, 5, 7⟩) ∧
      ∃ shown, ofFailure [34, 240, 159, 152, 128, 34, 32, 195, 169]
          (some (.scan (.illegalCharacter 'é' 1 ⟨1, 5, 7⟩))) = [shown] ∧
        shown.range.Delimits [34, 240, 159, 152, 128, 34, 32, 195, 169] 7 [195, 169] := by
  have failed : (Scanner.language .empty).scan [34, 240, 159, 152, 128, 34, 32, 195, 169] =
      .error (.illegalCharacter 'é' 1 ⟨1, 5, 7⟩) := by decide +kernel
  refine ⟨failed, ?_⟩
  obtain ⟨shown, position, bytes, one, offends, _, _, exact⟩ :=
    covers_offence (Scanner.build_defaults .empty) (by decide) failed
  cases offends with
  | illegal read =>
    have first : (Text.characters [195, 169]).head? = some ⟨'é', [195, 169]⟩ := by decide +kernel
    obtain rfl : bytes = [195, 169] := by simpa using read.symm.trans first
    refine ⟨shown, one, exact.mpr ?_⟩
    rintro _ _ ⟨⟩
    decide

/-- Of an illegal character of two code units one is covered. -/
theorem astral_cut :
    (Scanner.language .empty).scan [240, 159, 152, 128] =
        .error (.illegalCharacter '😀' 1 ⟨1, 1, 0⟩) ∧
      (ofFailure [240, 159, 152, 128] (some (.scan (.illegalCharacter '😀' 1 ⟨1, 1, 0⟩)))).map
        range = [⟨⟨0, 0⟩, ⟨0, 1⟩⟩] ∧
      EditorPosition.ofOffset [240, 159, 152, 128] 4 = ⟨0, 2⟩ ∧
      ¬EditorRange.Delimits ⟨⟨0, 0⟩, ⟨0, 1⟩⟩ [240, 159, 152, 128] 0 [240, 159, 152, 128] := by
  refine ⟨by decide +kernel, by decide +kernel, by decide, fun delimits => ?_⟩
  exact absurd delimits.stop.character (by decide)

end EditorDiagnostic

end Aml
