import Mathlib
import Aml.Proofs.Scan.Language

/-!
# Scans lose and duplicate nothing

The tokens of a scan lie in the source in order: each one is the slice of the source at its own
offset, and between neighbours stands what was skipped. `Covers` says so of a text, its tokens
and what may stand in the gaps, and `Scanner.Scans.covers` carries it through a scan with any
rules. With the rules of the language the gaps are blanks, newlines and comments, up to the end
of the source or to the place of the error.
-/
namespace Aml

/-- The bytes of a text from one offset to another, when both lie in the text in this order. -/
def Text.slice? (text : Text) (start stop : Int) : Option Text :=
  if 0 ≤ start ∧ start ≤ stop ∧ stop ≤ text.length then
    some ((text.drop start.toNat).take (stop - start).toNat)
  else none

/-- A segment of a text is the slice at its own offset. -/
theorem Text.slice?_segment (before segment after : Text) :
    (before ++ (segment ++ after)).slice? before.length (before.length + segment.length) =
      some segment := by
  rw [slice?, if_pos]
  · have sized : (before.length + segment.length - before.length : Int).toNat = segment.length := by
      omega
    rw [sized, Int.toNat_natCast, List.drop_left, List.take_left]
  · simp only [List.length_append]
    omega

/-- The offset after the last byte of a token. -/
def Token.stop (token : Token) : Int :=
  token.position.offset + token.lexeme.length

/-- The token that an answer gives. -/
def Answer.token? : Answer → Option Token
  | .token made => some made
  | _ => none

/-- The place of an error, if it has one. -/
def ScanError.position? : ScanError → Option Position
  | .illegalCharacter _ _ position => some position
  | .malformedNumber _ _ _ position _ => some position
  | _ => none

/-- The tokens of a text from an offset on: their lexemes, with gaps before, between and after
them, are the text, and each one stands at its own offset. -/
inductive Covers (isGap : Text → Prop) : Text → (offset : Int) → List Token → Prop where
  | last {gap : Text} {offset : Int} (fills : isGap gap) : Covers isGap gap offset []
  | token {gap rest : Text} {offset : Int} {token : Token} {tokens : List Token}
      (fills : isGap gap) (present : token.lexeme ≠ [])
      (placed : token.position.offset = offset + gap.length)
      (later : Covers isGap rest token.stop tokens) :
      Covers isGap (gap ++ (token.lexeme ++ rest)) offset (token :: tokens)

namespace Covers

variable {isGap : Text → Prop} {text : Text} {offset : Int} {tokens : List Token}

/-- A gap in front joins the first one. -/
theorem prepend (joins : ∀ {left right}, isGap left → isGap right → isGap (left ++ right))
    {gap : Text} (fills : isGap gap) (covers : Covers isGap text (offset + gap.length) tokens) :
    Covers isGap (gap ++ text) offset tokens := by
  cases covers with
  | last more => exact .last (joins fills more)
  | token more present placed later =>
    rw [← List.append_assoc]
    refine .token (joins fills more) present ?_ later
    rw [placed, List.length_append, Nat.cast_add, Int.add_assoc]

/-- Every token is there, and is the slice of the source at its own offset. -/
theorem slice? (covers : Covers isGap text offset tokens) {before after : Text}
    (placed : offset = before.length) :
    ∀ token ∈ tokens, token.lexeme ≠ [] ∧
      (before ++ (text ++ after)).slice? token.position.offset token.stop =
        some token.lexeme := by
  induction covers generalizing before with
  | last => simp
  | @token gap rest offset token tokens fills present starts later ih =>
    subst placed
    have start : token.position.offset = (before ++ gap).length := by
      rw [starts, List.length_append, Nat.cast_add]
    have stop : token.stop = (before ++ gap ++ token.lexeme).length := by
      simp only [Token.stop, start, List.length_append, Nat.cast_add]
    have split : before ++ (gap ++ (token.lexeme ++ rest) ++ after) =
        (before ++ gap) ++ (token.lexeme ++ (rest ++ after)) := by
      simp only [List.append_assoc]
    refine List.forall_mem_cons.mpr ⟨⟨present, ?_⟩, ?_⟩
    · rw [split, Token.stop, start]
      exact Text.slice?_segment _ _ _
    · rw [split, ← List.append_assoc (before ++ gap)]
      exact ih stop

/-- Every token starts at or after the end of the one before it. -/
theorem isChain (covers : Covers isGap text offset tokens) :
    tokens.IsChain fun earlier later => earlier.stop ≤ later.position.offset := by
  induction covers with
  | last => exact .nil
  | token fills present placed later ih =>
    cases later with
    | last => exact .singleton _
    | token more filled next further =>
      refine .cons_cons ?_ ih
      omega

end Covers

/-! ## The invariant of a scan -/

/-- A failed piece fails where it stands. -/
theorem Piece.position_of_read_failed {piece : Piece} {table : KeywordTable} {line : Int}
    {error : ScanError} (read : piece.read table line = .failed error) :
    ∀ place ∈ error.position?, place = piece.position := by
  obtain ⟨_, _, _, _, rfl⟩ := Piece.eq_of_read_failed read
  intro place found
  unfold Piece.failure at found
  split at found
  · exact (Option.some.inj found).symm
  · exact (Option.some.inj found).symm
  · contradiction

namespace Scanner

variable {scanner : Scanner}

/-- A scan covers the characters before its end or before the place of its error, whatever the
skipped pieces are, as long as gaps may be joined. -/
theorem Scans.covers (isGap : Text → Prop) (empty : isGap [])
    (joins : ∀ {left right}, isGap left → isGap right → isGap (left ++ right))
    (skips : ∀ {characters taken rest rule position line next},
      scanner.registry.split? characters = some (rule, taken, rest) →
      Piece.read ⟨rule, Text.ofCharacters taken, position⟩ scanner.table line = .skipped next →
      (∀ character ∈ taken, character.Sound) → isGap (Text.ofCharacters taken))
    {characters : List Character} {position : Position} {line final : Int} {tokens : List Token}
    {error : Option ScanError}
    (scans : scanner.Scans characters position line tokens final error)
    (sound : ∀ character ∈ characters, character.Sound) :
    ∃ covered rest, characters = covered ++ rest ∧
      Covers isGap (Text.ofCharacters covered) position.offset tokens ∧
      (error = none → rest = []) ∧
      ∀ fault ∈ error, ∀ place ∈ fault.position?,
        place.offset = position.offset + (Text.ofCharacters covered).length := by
  induction scans with
  | finished position line =>
    exact ⟨[], [], rfl, .last empty, fun _ => rfl, by simp⟩
  | @illegal character rest position line stuck =>
    refine ⟨[], character :: rest, rfl, .last empty, by simp, ?_⟩
    rintro _ ⟨⟩ place ⟨⟩
    simp
  | @skipped characters taken rest rule position line next final tokens error split read later ih =>
    obtain ⟨rfl, _, _⟩ := Registry.split?_eq_some_iff.mp split
    obtain ⟨within, others⟩ := List.forall_mem_append.mp sound
    obtain ⟨covered, left, rfl, covers, ends, placed⟩ := ih others
    refine ⟨taken ++ covered, left, (List.append_assoc _ _ _).symm, ?_, ends, ?_⟩
    · rw [Text.ofCharacters_append]
      exact covers.prepend joins (skips split read within)
    · intro fault failed place found
      rw [placed fault failed place found, Position.advance_offset, Text.ofCharacters_append,
        List.length_append, Nat.cast_add, Int.add_assoc]
  | @token characters taken rest rule position line final made tokens error split read later ih =>
    obtain ⟨rfl, present, _⟩ := Registry.split?_eq_some_iff.mp split
    obtain ⟨within, others⟩ := List.forall_mem_append.mp sound
    obtain ⟨covered, left, rfl, covers, ends, placed⟩ := ih others
    obtain ⟨lexeme, _, place⟩ := Piece.eq_of_read_token read
    simp only at lexeme place
    refine ⟨taken ++ covered, left, (List.append_assoc _ _ _).symm, ?_, ends, ?_⟩
    · rw [Text.ofCharacters_append, ← lexeme, ← List.nil_append (made.lexeme ++ _)]
      refine .token empty ?_ (by simp [place]) ?_
      · rw [lexeme]
        obtain ⟨first, others, rfl⟩ := List.exists_cons_of_ne_nil present
        simp [(within first List.mem_cons_self).ne_nil]
      · rw [Token.stop, place, lexeme]
        exact covers
    · intro fault failed place found
      rw [placed fault failed place found, Position.advance_offset, Text.ofCharacters_append,
        List.length_append, Nat.cast_add, Int.add_assoc]
  | @failed characters taken rest rule position line error split read =>
    refine ⟨[], characters, rfl, .last empty, by simp, ?_⟩
    rintro fault ⟨⟩ place found
    rw [Piece.position_of_read_failed read place found]
    simp

end Scanner

/-! ## The gaps of the language -/

/-- A text made of parts in a row. -/
def IsConcatenation (isPart : Text → Prop) (text : Text) : Prop :=
  ∃ parts : List Text, text = parts.flatten ∧ ∀ part ∈ parts, isPart part

/-- A text that the language skips. -/
inductive IsSkipped : Text → Prop where
  /-- A run of spaces and tabs. -/
  | blanks {run : Text} (present : run ≠ []) (all : ∀ byte ∈ run, byte = 32 ∨ byte = 9) :
      IsSkipped run
  /-- A run of newlines. -/
  | newlines {run : Text} (present : run ≠ []) (all : ∀ byte ∈ run, byte = Text.newline) :
      IsSkipped run
  /-- A number sign and the rest of its line. -/
  | comment {body : Text} (inline : Text.newline ∉ body) : IsSkipped (35 :: body)

/-- Blanks, newlines and comments in a row. -/
def IsGap : Text → Prop :=
  IsConcatenation IsSkipped

/-- Nothing is a gap. -/
theorem IsGap.nil : IsGap [] :=
  ⟨[], rfl, by simp⟩

/-- Two gaps in a row are one. -/
theorem IsGap.append {left right : Text} (one : IsGap left) (other : IsGap right) :
    IsGap (left ++ right) := by
  obtain ⟨parts, rfl, skipped⟩ := one
  obtain ⟨others, rfl, alike⟩ := other
  exact ⟨parts ++ others, List.flatten_append.symm, List.forall_mem_append.mpr ⟨skipped, alike⟩⟩

namespace Lexis

/-- What a suppressed rule of the language takes is a gap. -/
theorem Takes.isGap {rule : Rule} {taken rest : List Character} (takes : Takes rule taken rest)
    (suppressed : rule.suppress = true) (sound : ∀ character ∈ taken, character.Sound) :
    IsGap (Text.ofCharacters taken) := by
  refine ⟨[Text.ofCharacters taken], by simp, List.forall_mem_singleton.mpr ?_⟩
  cases takes with
  | string | real | integer | name | operator => contradiction
  | @comment mark body _ marked inner stops =>
    obtain ⟨first, within⟩ := List.forall_mem_cons.mp sound
    rw [Text.ofCharacters_cons, first.ascii (by rw [marked]; decide), marked]
    refine .comment fun member => ?_
    obtain ⟨character, listed, spells⟩ := List.mem_flatMap.mp member
    have ends := (within character listed).newline_mem_iff.mp spells
    have goesOn := inner character listed
    rw [Character.isNewline, ends] at goesOn
    contradiction
  | newlines present all =>
    have value (character : Character) (member : character ∈ taken) :
        character.scalar.toNat = 10 := Character.isNewline_iff.mp (all character member)
    have ascii (character : Character) (member : character ∈ taken) :
        character.scalar.toNat < 0x80 := by
      rw [value character member]
      decide
    rw [Text.ofCharacters_ascii sound ascii]
    refine .newlines (by simpa using present) fun byte member => ?_
    obtain ⟨character, listed, rfl⟩ := List.mem_map.mp member
    rw [value character listed]
    rfl
  | blanks present all =>
    have value (character : Character) (member : character ∈ taken) :
        character.scalar.toNat = 32 ∨ character.scalar.toNat = 9 :=
      Character.isBlank_iff.mp (all character member)
    have ascii (character : Character) (member : character ∈ taken) :
        character.scalar.toNat < 0x80 := by
      have := value character member
      omega
    rw [Text.ofCharacters_ascii sound ascii]
    refine .blanks (by simpa using present) fun byte member => ?_
    obtain ⟨character, listed, rfl⟩ := List.mem_map.mp member
    obtain space | tab := value character listed
    · exact .inl (by rw [space]; rfl)
    · exact .inr (by rw [tab]; rfl)

end Lexis

namespace Scanner

variable {table : KeywordTable} {characters : List Character} {position : Position}
  {line final : Int} {tokens : List Token} {error : Option ScanError}

/-- A scan of the language covers the source with gaps of the language. -/
theorem Scans.covers_language
    (scans : (language table).Scans characters position line tokens final error)
    (sound : ∀ character ∈ characters, character.Sound) :
    ∃ covered rest, characters = covered ++ rest ∧
      Covers IsGap (Text.ofCharacters covered) position.offset tokens ∧
      (error = none → rest = []) ∧
      ∀ fault ∈ error, ∀ place ∈ fault.position?,
        place.offset = position.offset + (Text.ofCharacters covered).length := by
  refine scans.covers IsGap IsGap.nil IsGap.append ?_ sound
  intro characters taken rest rule position line next split read within
  obtain ⟨_, takes⟩ := Lexis.split?_language_iff.mp split
  obtain ⟨suppressed, _⟩ | ⟨_, _, _, made⟩ | ⟨_, _, _, failed⟩ :=
    takes.read within table line position
  · exact takes.isGap suppressed within
  · cases read.symm.trans made
  · cases read.symm.trans failed

/-- Every error of a scan of the language has a place. -/
theorem Scans.position_of_language
    (scans : (language table).Scans characters position line tokens final error)
    (sound : ∀ character ∈ characters, character.Sound) :
    ∀ fault ∈ error, ∃ place, fault.position? = some place := by
  induction scans with
  | finished => simp
  | illegal position line =>
    rintro _ ⟨⟩
    exact ⟨position, rfl⟩
  | skipped split _ _ ih | token split _ _ ih =>
    obtain ⟨rfl, _, _⟩ := Registry.split?_eq_some_iff.mp split
    exact ih (List.forall_mem_append.mp sound).2
  | @failed characters taken rest rule position line error split read =>
    rintro _ ⟨⟩
    obtain ⟨rfl, takes⟩ := Lexis.split?_language_iff.mp split
    obtain ⟨_, skipped⟩ | ⟨_, _, _, made⟩ | ⟨_, _, _, failed⟩ :=
      takes.read (List.forall_mem_append.mp sound).1 table line position
    · cases read.symm.trans skipped
    · cases read.symm.trans made
    · obtain rfl := Reading.failed.inj (read.symm.trans failed)
      exact ⟨position, rfl⟩

end Scanner

/-- The tokens among the first answers of a stream. -/
def Stream.produced (calls : Nat) (stream : Stream) : List Token :=
  (Stream.ask calls stream).1.filterMap Answer.token?

/-- A stream produces the first tokens of the scan. -/
theorem Scanner.produced_stream (scanner : Scanner) (source : Text) (calls : Nat) :
    Stream.produced calls (scanner.stream source) =
      (scanner.scanUntilFailure source).1.take calls := by
  have none : (Answer.last (scanner.lastError? source)).token? = none := by
    cases scanner.lastError? source <;> rfl
  rw [Stream.produced, (scanner.ask_stream source calls).1, List.filterMap_append,
    List.filterMap_map, List.filterMap_replicate_of_none none, List.append_nil]
  exact List.filterMap_some

/-- Scans lose and duplicate nothing. With any rules, each token that a stream produces is there,
is the slice of the source at its own offset, and starts at or after the end of the one before
it. With the rules of the language the lexemes, with blanks, newlines and comments before, between
and after them, are the source, or the part of it before the place of the error. -/
theorem Scanner.stream_lossless (scanner : Scanner) (source : Text) :
    (∀ calls,
      (∀ token ∈ Stream.produced calls (scanner.stream source), token.lexeme ≠ [] ∧
        source.slice? token.position.offset token.stop = some token.lexeme) ∧
      (Stream.produced calls (scanner.stream source)).IsChain fun earlier later =>
        earlier.stop ≤ later.position.offset) ∧
    (∀ table, Scanner.build table Rule.defaults = .ok scanner →
      (∀ tokens, scanner.scan source = .ok tokens → Covers IsGap source 0 tokens) ∧
      ∀ error, scanner.scan source = .error error →
        ∃ tokens place covered,
          (Stream.ask (tokens.length + 1) (scanner.stream source)).1 =
            tokens.map .token ++ [.failed error] ∧
          error.position? = some place ∧ source.slice? 0 place.offset = some covered ∧
          Covers IsGap covered 0 tokens) := by
  have sound := source.sound_of_mem_characters
  constructor
  · intro calls
    rw [scanner.produced_stream]
    obtain ⟨covered, rest, split, covers, _⟩ :=
      (scanner.scans source).covers (fun _ => True) trivial (fun _ _ => trivial)
        (fun _ _ _ => trivial) sound
    have whole : source = [] ++ (Text.ofCharacters covered ++ Text.ofCharacters rest) := by
      rw [List.nil_append, ← Text.ofCharacters_append, ← split, Text.ofCharacters_characters]
    refine ⟨fun token member => ?_, covers.isChain.take calls⟩
    rw [whole]
    exact covers.slice? rfl token (List.mem_of_mem_take member)
  · intro words built
    obtain ⟨table, _, rfl⟩ := language_of_built built
    have scans := language_scans table source
    obtain ⟨covered, rest, split, covers, ends, placed⟩ := scans.covers_language sound
    have whole : source = Text.ofCharacters covered ++ Text.ofCharacters rest := by
      rw [← Text.ofCharacters_append, ← split, Text.ofCharacters_characters]
    refine ⟨fun tokens scanned => ?_, fun error failed => ?_⟩
    · have done := scan_eq_ok_iff.mp scanned
      rw [done] at covers
      rw [ends (by rw [done]), Text.ofCharacters_nil, List.append_nil] at whole
      exact whole ▸ covers
    · have met := scan_eq_error_iff.mp failed
      obtain ⟨place, known⟩ := scans.position_of_language sound error met
      refine ⟨_, place, Text.ofCharacters covered, ?_, known, ?_, covers⟩
      · rw [((language table).ask_stream source _).1, lastError?_of_scanUntilFailure met]
        simp [Answer.last]
      · rw [placed error met place known]
        conv_lhs => rw [whole]
        simpa [Position.start] using
          Text.slice?_segment [] (Text.ofCharacters covered) (Text.ofCharacters rest)

/-- A name and a comment before an illegal character are covered. -/
theorem Scanner.stream_lossless_illegal :
    (Scanner.language .empty).scan ("a #b\n$" : String) =
        .error (.illegalCharacter '$' 2 ⟨2, 1, 5⟩) ∧
      ∃ tokens place covered,
        (Stream.ask (tokens.length + 1) ((Scanner.language .empty).stream ("a #b\n$" : String))).1 =
          tokens.map .token ++ [.failed (.illegalCharacter '$' 2 ⟨2, 1, 5⟩)] ∧
        (ScanError.illegalCharacter '$' 2 ⟨2, 1, 5⟩).position? = some place ∧
        Text.slice? ("a #b\n$" : String) 0 place.offset = some covered ∧
        Covers IsGap covered 0 tokens := by
  have failed : (Scanner.language .empty).scan ("a #b\n$" : String) =
      .error (.illegalCharacter '$' 2 ⟨2, 1, 5⟩) := by rfl
  exact ⟨failed, ((stream_lossless (language .empty) _).2 _ (build_defaults .empty)).2 _ failed⟩

end Aml
