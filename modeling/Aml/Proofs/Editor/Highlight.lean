import Mathlib
import Aml.Editor.Session
import Aml.Proofs.Rule.Acceptance
import Aml.Proofs.Scan.Placement

/-!
# Highlights are exact

An editor reads the numbers that it is sent for a document in groups of five, each group relative to
the one before it (`Highlight.decode`). Reading gives back the highlights that were written whenever
no subtraction between neighbours wraps around (`Highlight.decodeFrom_encodeFrom`). For the tokens
of a scan none does: they are laid out in order, so the entries of those within one line increase
and do not overlap (`Laid.pairwise_precedes`). What the editor then sees of each token is its place,
its length and its type.
-/
namespace Aml

open Text

/-- A highlighted token as an editor reads it: counted from 0, in code units. -/
structure HighlightEntry where
  line : Nat
  start : Nat
  length : Nat
  /-- The index of the type in the legend. -/
  type : Nat
  modifiers : Nat
  deriving DecidableEq

/-- An entry stands before another one: on an earlier line, or on the same line with an earlier
start and an end that does not pass the other's start. -/
def HighlightEntry.Precedes (earlier later : HighlightEntry) : Prop :=
  earlier.line < later.line ∨
    earlier.line = later.line ∧ earlier.start < later.start ∧
      earlier.start + earlier.length ≤ later.start

/-! ## Reading what is sent -/

/-- The distances from a position to the next one are exact: no subtraction wraps around, neither
that of the lines nor, when it gives zero, that of the characters. -/
def EditorPosition.Exact (previous next : EditorPosition) : Prop :=
  ((next.line - previous.line).toNat : Int) = next.line.toNat - previous.line.toNat ∧
    (next.line - previous.line = 0 →
      ((next.character - previous.character).toNat : Int) =
        next.character.toNat - previous.character.toNat)

/-- Distances to a position that is not before the other one are exact. -/
theorem EditorPosition.exact_of_le {previous next : EditorPosition}
    (ordered : previous.line.toNat < next.line.toNat ∨
      previous.line.toNat = next.line.toNat ∧
        previous.character.toNat ≤ next.character.toNat) :
    previous.Exact next := by
  have lines : previous.line ≤ next.line := by
    rw [UInt32.le_iff_toNat_le]
    omega
  have distance := UInt32.toNat_sub_of_le _ _ lines
  refine ⟨by omega, fun same => ?_⟩
  have none : (next.line - previous.line).toNat = 0 := by
    rw [same]
    rfl
  have characters : previous.character ≤ next.character := by
    rw [UInt32.le_iff_toNat_le]
    omega
  have gap := UInt32.toNat_sub_of_le _ _ characters
  rw [UInt32.le_iff_toNat_le] at characters
  omega

namespace Highlight

/-- Reads groups of five numbers after a line and a start: a zero distance in lines adds to the
start, any other one adds to the line and starts anew. -/
def decodeFrom : (line start : Nat) → List UInt32 → Option (List HighlightEntry)
  | _, _, [] => some []
  | line, start, lines :: characters :: length :: type :: modifiers :: rest =>
    let reached : Nat × Nat :=
      if lines = 0 then (line, start + characters.toNat)
      else (line + lines.toNat, characters.toNat)
    (decodeFrom reached.1 reached.2 rest).map
      (⟨reached.1, reached.2, length.toNat, type.toNat, modifiers.toNat⟩ :: ·)
  | _, _, _ => none

/-- Reads the numbers sent for a document; they must come in groups of five. -/
def decode (data : List UInt32) : Option (List HighlightEntry) :=
  decodeFrom 0 0 data

/-- A highlight as an editor should read it. -/
def entry (highlight : Highlight) : HighlightEntry where
  line := highlight.position.line.toNat
  start := highlight.position.character.toNat
  length := highlight.length.toNat
  type := highlight.type.index.toNat
  modifiers := 0

/-- Reading the group of a highlight leads from the position before it to its own. -/
theorem decodeFrom_group {previous : EditorPosition} {highlight : Highlight}
    (exact : previous.Exact highlight.position) (rest : List UInt32) :
    decodeFrom previous.line.toNat previous.character.toNat (highlight.group previous ++ rest) =
      (decodeFrom highlight.position.line.toNat highlight.position.character.toNat rest).map
        (highlight.entry :: ·) := by
  obtain ⟨lines, characters⟩ := exact
  by_cases same : highlight.position.line - previous.line = 0
  · have none : (highlight.position.line - previous.line).toNat = 0 := by
      rw [same]
      rfl
    have gap := characters same
    have row : previous.line.toNat = highlight.position.line.toNat := by omega
    have column : previous.character.toNat +
        (highlight.position.character - previous.character).toNat =
          highlight.position.character.toNat := by omega
    simp only [group, if_pos same, List.cons_append, List.nil_append, decodeFrom, row, column]
    rfl
  · have row : previous.line.toNat + (highlight.position.line - previous.line).toNat =
        highlight.position.line.toNat := by omega
    simp only [group, if_neg same, List.cons_append, List.nil_append, decodeFrom, row]
    rfl

/-- Reading gives back what was written, as long as no distance wraps around. -/
theorem decodeFrom_encodeFrom (previous : EditorPosition) (highlights : List Highlight)
    (exact : List.IsChain EditorPosition.Exact (previous :: highlights.map Highlight.position)) :
    decodeFrom previous.line.toNat previous.character.toNat (encodeFrom previous highlights) =
      some (highlights.map entry) := by
  induction highlights generalizing previous with
  | nil => rfl
  | cons highlight rest ih =>
    rw [List.map_cons, List.isChain_cons_cons] at exact
    rw [encodeFrom, decodeFrom_group exact.1, ih highlight.position exact.2]
    rfl

/-- The type of a highlight is named in the legend at its index. -/
theorem legend_index (type : HighlightType) :
    (HighlightType.legend.map HighlightType.name)[type.index.toNat]? = some type.name ∧
      type.index.toNat < 5 := by
  cases type <;> decide

end Highlight

/-! ## The entries of tokens -/

/-- The entry of a token: its line and its column in the source, its length and its type. -/
def Token.entry (source : Text) (token : Token) : HighlightEntry where
  line := newlines (source.take token.position.offset.toNat)
  start := (lastLine (source.take token.position.offset.toNat)).units
  length := token.lexeme.units
  type := (HighlightType.ofKind token.kind).index.toNat
  modifiers := 0

/-- The highlights of tokens of a short source are read as the entries of those that are within one
line. -/
theorem Highlight.map_entry_ofTokens {source : Text} (short : source.length < 2 ^ 32)
    {tokens : List Token} (within : ∀ token ∈ tokens, token.lexeme.length ≤ source.length) :
    (Highlight.ofTokens source tokens).map Highlight.entry =
      (tokens.filter fun token => newline ∉ token.lexeme).map (Token.entry source) := by
  induction tokens with
  | nil => rfl
  | cons token rest ih =>
    obtain ⟨bounded, later⟩ := List.forall_mem_cons.mp within
    have remaining := ih later
    by_cases spans : newline ∈ token.lexeme
    · have dropped : Highlight.ofToken? source token = none := by
        rw [Highlight.ofToken?, if_pos (List.contains_iff_mem.mpr spans)]
      rw [Highlight.ofTokens, List.filterMap_cons_none dropped, List.filter_cons_of_neg (by simpa)]
      exact remaining
    · have kept : Highlight.ofToken? source token = some
          ⟨.ofOffset source token.position.offset.toNat, token.lexeme.units.toUInt32,
            .ofKind token.kind⟩ := by
        rw [Highlight.ofToken?, if_neg (mt List.contains_iff_mem.mp spans)]
      obtain ⟨rows, columns⟩ :=
        EditorPosition.toNat_ofOffset short token.position.offset.toNat
      have sized : token.lexeme.units.toUInt32.toNat = token.lexeme.units := by
        have measured := token.lexeme.units_le_length
        apply UInt32.toNat_ofNat_of_lt'
        change _ < 2 ^ 32
        omega
      rw [Highlight.ofTokens, List.filterMap_cons_some kept, List.filter_cons_of_pos (by simpa),
        List.map_cons, List.map_cons]
      refine List.cons_eq_cons.mpr ⟨?_, remaining⟩
      simp only [Highlight.entry, Token.entry, rows, columns, sized]

namespace Laid

variable {source : Text} {before : List Character} {tokens : List Token}

/-- A token is no longer than the source. -/
theorem length_le (laid : Laid source before tokens) :
    ∀ token ∈ tokens, token.lexeme.length ≤ source.length := by
  intro token member
  obtain ⟨gap, taken, after, whole, _, spelled, _⟩ := laid.exists_of_mem token member
  have sized := congrArg List.length (eq_append_of_characters whole)
  rw [List.length_append, ofCharacters_append taken, List.length_append] at sized
  rw [spelled]
  omega

/-- The entry of a token counts lines and code units up to its characters. -/
theorem entry_eq {front after : List Character} {token : Token}
    (whole : source.characters = front ++ after)
    (placed : token.position = Position.start.advance (ofCharacters front)) :
    (token.entry source).line = newlines (ofCharacters front) ∧
      (token.entry source).start = (lastLine (ofCharacters front)).units := by
  have offset : token.position.offset.toNat = (ofCharacters front).length := by
    rw [placed, Position.advance_offset]
    simp [Position.start]
  simp only [Token.entry, offset, take_of_characters whole, and_self]

/-- The code units before a place on its line go on counting through characters that end no
line. -/
theorem units_lastLine_append {front middle after : List Character}
    (whole : source.characters = front ++ (middle ++ after))
    (inline : newlines (ofCharacters middle) = 0) :
    (lastLine (ofCharacters (front ++ middle))).units =
      (lastLine (ofCharacters front)).units + (ofCharacters middle).units := by
  have meets := meets_ofCharacters whole
  rw [ofCharacters_append, lastLine_append inline, units_append meets.lastLine]

/-- The entries of the tokens within one line increase and do not overlap. -/
theorem pairwise_precedes (laid : Laid source before tokens) :
    tokens.Pairwise fun earlier later => newline ∉ earlier.lexeme →
      (earlier.entry source).Precedes (later.entry source) := by
  induction laid with
  | nil => exact .nil
  | @cons before gap taken after token tokens whole present spelled placed later ih =>
    refine .cons ?_ ih
    intro other member single
    obtain ⟨more, follows, rest, split, _, _, reached⟩ := later.exists_of_mem other member
    obtain ⟨row, column⟩ := entry_eq whole placed
    obtain ⟨otherRow, otherColumn⟩ := entry_eq split reached
    have inline : newlines (ofCharacters taken) = 0 := by
      rw [← spelled]
      exact List.count_eq_zero.mpr single
    have rows : (other.entry source).line =
        (token.entry source).line + newlines (ofCharacters more) := by
      rw [row, otherRow, ofCharacters_append, ofCharacters_append, newlines_append,
        newlines_append, inline, Nat.add_zero]
    by_cases same : newlines (ofCharacters more) = 0
    · -- Between the two tokens no line ends, so the code units of what stands there add up.
      have joined : source.characters =
          ((before ++ gap) ++ taken) ++ (more ++ (follows ++ rest)) := by
        rw [split, List.append_assoc]
      have columns : (other.entry source).start =
          (token.entry source).start + token.lexeme.units + (ofCharacters more).units := by
        rw [column, otherColumn, units_lastLine_append joined same,
          units_lastLine_append whole inline, spelled]
      have positive : 0 < token.lexeme.units := by
        have read : token.lexeme.characters = taken := by
          rw [spelled]
          exact characters_ofCharacters whole
        obtain ⟨first, others, rfl⟩ := List.exists_cons_of_ne_nil present
        have unit := first.units_pos
        rw [units_eq, read, Character.totalUnits, List.map_cons, List.sum_cons]
        omega
      have length : (token.entry source).length = token.lexeme.units := rfl
      refine .inr ⟨by omega, by omega, by omega⟩
    · exact .inl (by omega)

end Laid

/-! ## What an editor sees -/

/-- The name of the type of an entry, in the legend that an editor gets. -/
def HighlightEntry.typeName? (entry : HighlightEntry) : Option String :=
  (HighlightType.legend.map HighlightType.name)[entry.type]?

/-- What tokens are shown as: reserved words as keywords, operators as operators, both numerals as
numbers, strings as strings, and names as variables. -/
inductive Kind.ShownAs : Kind → String → Prop where
  | keyword {kind : Kind} (reserved : kind.family = .ok .reserved) : ShownAs kind "keyword"
  | operator {kind : Kind} (operator : kind.family = .ok .operator) : ShownAs kind "operator"
  | integer : ShownAs (.operand .integer) "number"
  | real : ShownAs (.operand .real) "number"
  | string : ShownAs (.operand .string) "string"
  | variable : ShownAs (.operand .identifier) "variable"

/-- A kind that has a family is shown as its type says. -/
theorem Kind.shownAs_name {kind : Kind} {family : Family} (known : kind.family = .ok family) :
    kind.ShownAs (HighlightType.ofKind kind).name := by
  cases kind with
  | reserved kind => exact .keyword rfl
  | operator kind => exact .operator rfl
  | operand kind =>
    cases kind with
    | identifier => exact .variable
    | integer => exact .integer
    | real => exact .real
    | string => exact .string
  | undeclared index => contradiction

/-- An entry describes a token of a source. -/
structure HighlightEntry.Describes (source : Text) (token : Token) (entry : HighlightEntry) :
    Prop where
  /-- The entry names the place of the token by its line and its code units. -/
  placed : ∃ place : source.Place, token.position.offset = place.offset ∧
    entry.line = place.row ∧ entry.start = place.units
  /-- The length counts the code units of the lexeme. -/
  length : entry.length = Character.totalUnits token.lexeme.characters
  /-- The kind of the token has a family, from which its type is read. -/
  family : ∃ family, token.kind.family = .ok family
  /-- The type is the one that the kind is shown as. -/
  type : ∃ name, entry.typeName? = some name ∧ token.kind.ShownAs name
  /-- The legend has five types. -/
  bounded : entry.type < 5
  /-- There are no modifiers. -/
  plain : entry.modifiers = 0

/-- The entry of a token that is laid out in a source describes it. -/
theorem Laid.describes {source : Text} {tokens : List Token} (laid : Laid source [] tokens)
    {token : Token} (member : token ∈ tokens)
    (family : ∃ family, token.kind.family = .ok family) :
    (token.entry source).Describes source token := by
  obtain ⟨_, known⟩ := family
  obtain ⟨gap, taken, after, whole, _, _, placed⟩ := laid.exists_of_mem token member
  obtain ⟨place, split, _⟩ := exists_place whole
  obtain ⟨row, column⟩ := entry_eq whole placed
  have before : place.before = ofCharacters ([] ++ gap) := by
    rw [Place.before, ← ofCharacters_append, split]
  obtain ⟨listed, bounded⟩ := Highlight.legend_index (.ofKind token.kind)
  refine ⟨⟨place, ?_, ?_, ?_⟩, token.lexeme.units_eq, ⟨_, known⟩,
    ⟨_, listed, Kind.shownAs_name known⟩, bounded, rfl⟩
  · rw [placed, Position.advance_offset, Place.offset, before]
    simp [Position.start]
  · rw [row, Place.row, place.take_offset, before]
  · rw [column, ← before, place.lastLine_before, units_eq, place.characters_line, Place.units]

/-- Highlights are exact. Asked for the highlights of an open document shorter than 2^32 bytes, a
session with accepted rules answers with numbers from which an editor reads one entry for each
token within one line that the scan of the text finds, in order, and the entry describes it. The
entries increase strictly and do not overlap, and no subtraction between the positions of
neighbours, from the start of the text on, wraps around. -/
theorem Session.highlights_exact {table : Option KeywordTable} {rules : List Rule}
    {session : Session} (built : Scanner.build table rules = .ok session.scanner)
    {name text : Text} (opened : session.documents.get? name = some text)
    (short : text.length < 2 ^ 32) (listening : Bool) :
    ∃ data entries,
      session.answer listening (.highlights name) = (session, .highlights data, []) ∧
      Highlight.decode data = some entries ∧
      List.Forall₂ (HighlightEntry.Describes text)
        ((session.scanner.scanUntilFailure text).1.filter fun token => newline ∉ token.lexeme)
        entries ∧
      entries.Pairwise HighlightEntry.Precedes ∧
      List.IsChain EditorPosition.Exact ({} ::
        (Highlight.ofTokens text (session.scanner.scanUntilFailure text).1).map
          Highlight.position) := by
  have laid := (session.scanner.laid text).1
  have families := Scanner.family_of_mem built text
  let highlights := Highlight.ofTokens text (session.scanner.scanUntilFailure text).1
  have entries : highlights.map Highlight.entry =
      ((session.scanner.scanUntilFailure text).1.filter fun token => newline ∉ token.lexeme).map
        (Token.entry text) :=
    Highlight.map_entry_ofTokens short laid.length_le
  have ordered : (highlights.map Highlight.entry).Pairwise HighlightEntry.Precedes := by
    rw [entries, List.pairwise_map, List.pairwise_filter]
    refine laid.pairwise_precedes.imp fun precedes single _ => precedes ?_
    simpa using single
  have exact : List.IsChain EditorPosition.Exact ({} :: highlights.map Highlight.position) := by
    refine List.Pairwise.isChain (.cons ?_ ?_)
    · intro position _
      refine EditorPosition.exact_of_le ?_
      have origin : ({} : EditorPosition).line.toNat = 0 ∧
          ({} : EditorPosition).character.toNat = 0 := ⟨rfl, rfl⟩
      omega
    · rw [List.pairwise_map] at ordered ⊢
      refine ordered.imp fun precedes => EditorPosition.exact_of_le ?_
      obtain above | ⟨same, before, _⟩ := precedes
      · exact .inl above
      · exact .inr ⟨same, Nat.le_of_lt before⟩
  refine ⟨Highlight.encode highlights, highlights.map Highlight.entry, ?_,
    Highlight.decodeFrom_encodeFrom {} highlights exact, ?_, ordered, exact⟩
  · rw [answer, opened]
    rfl
  · rw [entries, List.forall₂_map_right_iff, List.forall₂_same]
    intro token member
    have listed := List.mem_of_mem_filter member
    exact laid.describes listed (families token listed)

/-- A string with a character of two code units and a name on the first line, then a string that
spans lines, which has no entry, and a name after it. -/
theorem Session.highlights_exact_spanning :
    ∃ session : Session,
      session.documents.get? [117] =
        some [34, 240, 159, 152, 128, 34, 32, 120, 10, 34, 10, 34, 121] ∧
      ∃ data entries,
        session.answer true (.highlights [117]) = (session, .highlights data, []) ∧
        data = [0, 0, 4, 3, 0, 0, 5, 1, 4, 0, 2, 1, 1, 4, 0] ∧
        Highlight.decode data = some entries ∧ entries.Pairwise HighlightEntry.Precedes := by
  have opened :
      Documents.get? ⟨[([117], [34, 240, 159, 152, 128, 34, 32, 120, 10, 34, 10, 34, 121])]⟩ [117] =
        some [34, 240, 159, 152, 128, 34, 32, 120, 10, 34, 10, 34, 121] := by rfl
  obtain ⟨data, entries, answered, decoded, _, ordered, _⟩ :=
    @highlights_exact _ _ ⟨.language .empty, _⟩ (Scanner.build_defaults .empty) _ _ opened
      (by decide) true
  have known : (Session.mk (.language .empty) {}).highlightData
      [34, 240, 159, 152, 128, 34, 32, 120, 10, 34, 10, 34, 121] =
        [0, 0, 4, 3, 0, 0, 5, 1, 4, 0, 2, 1, 1, 4, 0] := by rfl
  have same := Reply.highlights.inj (congrArg (fun outcome => outcome.2.1) answered)
  exact ⟨_, opened, data, entries, answered, same.symm.trans known, decoded, ordered⟩

end Aml
