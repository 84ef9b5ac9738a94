import Mathlib
import Aml.Proofs.Position
import Aml.Proofs.Rule.Grammar
import Aml.Proofs.Scan.Judgment

/-!
# Scanning the language

`Scanner.language` is the scanner that the rules of the language make with a keyword table. What
it does with the characters that a rule takes is said once (`Lexis.Takes.read`): a suppressed
match advances the line counter by its newlines, any other match becomes a token with its own
text, and only numerals can fail. From that follow the steps by which scans of the language are
derived, and that a run of blanks or newlines can be scanned one character at a time
(`Scanner.Scans.cons_run`).
-/
namespace Aml

/-- The scanner of the language with a keyword table. -/
def Scanner.language (table : KeywordTable) : Scanner :=
  ⟨Registry.language, table⟩

/-- The rules of the language make the scanner of the language with every keyword table. -/
theorem Scanner.build_defaults (table : KeywordTable) :
    Scanner.build (some table) Rule.defaults = .ok (Scanner.language table) := by
  rw [build, Registry.ofRules_defaults]
  rfl

/-- A scanner built from the rules of the language is the scanner of the language with some
keyword table. -/
theorem Scanner.language_of_built {table : Option KeywordTable} {scanner : Scanner}
    (built : Scanner.build table Rule.defaults = .ok scanner) :
    ∃ words, table = some words ∧ scanner = Scanner.language words := by
  cases table with
  | none => contradiction
  | some words => exact ⟨words, rfl, (Except.ok.inj ((build_defaults words).symm.trans built)).symm⟩

/-- The newlines of a text are its newline characters. -/
theorem Text.newlines_ofCharacters {characters : List Character}
    (sound : ∀ character ∈ characters, character.Sound) :
    (Text.ofCharacters characters).newlines = characters.countP Character.isNewline := by
  induction characters with
  | nil => rfl
  | cons character rest ih =>
    obtain ⟨first, later⟩ := List.forall_mem_cons.mp sound
    rw [ofCharacters_cons, newlines_append, ih later, List.countP_cons, Nat.add_comm]
    congr 1
    by_cases ends : character.scalar = '\n'
    · have spelled := first.ascii (by rw [ends]; decide)
      rw [spelled, ends, Character.isNewline, ends]
      rfl
    · have absent : newline ∉ character.bytes := mt first.newline_mem_iff.mp ends
      rw [newlines, List.count_eq_zero.mpr absent, Character.isNewline, decide_eq_false ends]
      rfl

/-- The characters of a text without a newline end no line. -/
theorem Text.isNewline_eq_false {text : Text} (inline : newline ∉ text) :
    ∀ character ∈ text.characters, character.isNewline = false := by
  intro character member
  have sound := text.sound_of_mem_characters character member
  rw [Bool.eq_false_iff]
  intro ends
  have spelled := sound.newline_mem_iff.mpr (of_decide_eq_true ends)
  rw [← text.ofCharacters_characters] at inline
  exact inline (List.mem_flatMap.mpr ⟨character, member, spelled⟩)

/-- Characters that end no line have no newline. -/
theorem Text.newlines_eq_zero {characters : List Character}
    (sound : ∀ character ∈ characters, character.Sound)
    (inline : ∀ character ∈ characters, character.isNewline = false) :
    (Text.ofCharacters characters).newlines = 0 := by
  rw [newlines_ofCharacters sound, List.countP_eq_zero]
  simpa using inline

/-! ## What becomes of a match -/

/-- Between quotes stands the value of a string. -/
theorem Converter.unquote_quoted (body : Text) :
    Converter.unquote (quote :: (body ++ [quote])) = .ok body := by
  cases body with
  | nil => rfl
  | cons byte rest =>
    have inner : ((byte :: rest) ++ [quote]).dropLast = byte :: rest := List.dropLast_concat
    rw [List.cons_append] at inner
    rw [List.cons_append, unquote]
    simp [inner]

namespace Piece

variable (table : KeywordTable) (lexeme : Text) (line : Int) (position : Position)

/-- Names are keywords of the table or their own values. -/
theorem read_identifier :
    read ⟨Rule.identifier, lexeme, position⟩ table line =
      .token (match table.lookup? lexeme with
        | some kind => ⟨.reserved kind, lexeme, none, line, position⟩
        | none => ⟨.operand .identifier, lexeme, some (.string lexeme), line, position⟩) := by
  rw [@read_of_convert_ok Rule.identifier .identity _ _ _ _ rfl rfl rfl (some (.string lexeme)) rfl]
  cases found : table.lookup? lexeme with
  | none =>
    rw [KeywordTable.resolve, if_pos (by rfl), found]
    rfl
  | some kind => rw [KeywordTable.resolve, if_pos (by rfl), found]

/-- Operators have no value. -/
theorem read_operator (operator : Operator) :
    read ⟨operator.rule, lexeme, position⟩ table line =
      .token ⟨.operator operator, lexeme, none, line, position⟩ := by
  cases operator <;> rfl

/-- Strings lose their quotes. -/
theorem read_stringLiteral :
    read ⟨Rule.stringLiteral, lexeme, position⟩ table line =
      match Converter.unquote lexeme with
      | .ok contents =>
        .token ⟨.operand .string, lexeme, some (.string contents), line, position⟩
      | .error cause => .failed (.conversion line Rule.stringLiteral.name lexeme cause) := by
  cases converted : Converter.unquote lexeme with
  | ok contents =>
    have value : Converter.string.convert lexeme = .ok (some (.string contents)) := by
      simp only [Converter.string, converted, Except.map]
    exact read_of_convert_ok rfl rfl rfl value
  | error cause =>
    have refused : Converter.string.convert lexeme = .error cause := by
      simp only [Converter.string, converted, Except.map]
    exact read_of_convert_error rfl rfl rfl refused

/-- Numerals without a point have the value of their digits, if it is in range. -/
theorem read_integerNumeral :
    read ⟨Rule.integerNumeral, lexeme, position⟩ table line =
      match Numeral.decimal lexeme with
      | .ok value => .token ⟨.operand .integer, lexeme, some (.integer value), line, position⟩
      | .error fault => .failed (.malformedNumber lexeme (.operand .integer) line position
          (some (.numeral .integer lexeme fault))) := by
  cases converted : Numeral.decimal lexeme with
  | ok number =>
    have value : Converter.integer.convert lexeme = .ok (some (.integer number)) := by
      simp only [Converter.integer, converted]
    exact read_of_convert_ok rfl rfl rfl value
  | error fault =>
    have refused : Converter.integer.convert lexeme = .error (.numeral .integer lexeme fault) := by
      simp only [Converter.integer, converted]
    exact read_of_convert_error rfl rfl rfl refused

/-- Numerals with a point have the number nearest to them for a value, if it is in range. -/
theorem read_realNumeral :
    read ⟨Rule.realNumeral, lexeme, position⟩ table line =
      match Numeral.real lexeme with
      | .ok value => .token ⟨.operand .real, lexeme, some (.real value), line, position⟩
      | .error fault => .failed (.malformedNumber lexeme (.operand .real) line position
          (some (.numeral .real lexeme fault))) := by
  cases converted : Numeral.real lexeme with
  | ok number =>
    have value : Converter.real.convert lexeme = .ok (some (.real number)) := by
      simp only [Converter.real, converted]
    exact read_of_convert_ok rfl rfl rfl value
  | error fault =>
    have refused : Converter.real.convert lexeme = .error (.numeral .real lexeme fault) := by
      simp only [Converter.real, converted]
    exact read_of_convert_error rfl rfl rfl refused

end Piece

namespace Lexis

/-- The bytes of a string are those of its inside between quotes. -/
theorem ofCharacters_quoted {opening closing : Character} {body : List Character}
    (sound : ∀ character ∈ opening :: (body ++ [closing]), character.Sound)
    (opens : opening.scalar = '"') (closes : closing.scalar = '"') :
    Text.ofCharacters (opening :: (body ++ [closing])) =
      Converter.quote :: (Text.ofCharacters body ++ [Converter.quote]) := by
  have first := (sound opening (by simp)).ascii (by rw [opens]; decide)
  have last := (sound closing (by simp)).ascii (by rw [closes]; decide)
  rw [opens] at first
  rw [closes] at last
  simp [first, last, Converter.quote]

/-- A rule of the language that is suppressed advances the line counter by the newlines it takes;
any other one makes a token with the text taken, unless a numeral has no value. -/
theorem Takes.read {rule : Rule} {taken rest : List Character} (takes : Takes rule taken rest)
    (sound : ∀ character ∈ taken, character.Sound) (table : KeywordTable) (line : Int)
    (position : Position) :
    (rule.suppress = true ∧ Piece.read ⟨rule, Text.ofCharacters taken, position⟩ table line =
        .skipped (line + (Text.ofCharacters taken).newlines)) ∨
      (rule.suppress = false ∧ ∃ kind value,
        Piece.read ⟨rule, Text.ofCharacters taken, position⟩ table line =
          .token ⟨kind, Text.ofCharacters taken, value, line, position⟩) ∨
      rule.suppress = false ∧ ∃ kind cause,
        Piece.read ⟨rule, Text.ofCharacters taken, position⟩ table line =
        .failed (.malformedNumber (Text.ofCharacters taken) kind line position cause) := by
  cases takes with
  | @string opening closing body _ opens inner closes =>
    refine .inr (.inl ⟨rfl, ?_⟩)
    rw [ofCharacters_quoted sound opens closes, Piece.read_stringLiteral, Converter.unquote_quoted]
    exact ⟨_, _, rfl⟩
  | real =>
    rw [Piece.read_realNumeral]
    cases Numeral.real _ with
    | ok value => exact .inr (.inl ⟨rfl, _, _, rfl⟩)
    | error fault => exact .inr (.inr ⟨rfl, _, _, rfl⟩)
  | integer =>
    rw [Piece.read_integerNumeral]
    cases Numeral.decimal _ with
    | ok value => exact .inr (.inl ⟨rfl, _, _, rfl⟩)
    | error fault => exact .inr (.inr ⟨rfl, _, _, rfl⟩)
  | name =>
    rw [Piece.read_identifier]
    cases table.lookup? _ with
    | some kind => exact .inr (.inl ⟨rfl, _, _, rfl⟩)
    | none => exact .inr (.inl ⟨rfl, _, _, rfl⟩)
  | @comment mark body _ marked inner stops =>
    rw [Text.newlines_eq_zero sound (isNewline_of_comment marked inner), Nat.cast_zero,
      Int.add_zero]
    exact .inl ⟨rfl, by rfl⟩
  | newlines => exact .inl ⟨rfl, by rfl⟩
  | blanks present all stops =>
    have inline : ∀ character ∈ taken, character.isNewline = false := by
      intro character member
      have blank := Character.isBlank_iff.mp (all character member)
      rw [Bool.eq_false_iff, Ne, Character.isNewline_iff]
      omega
    rw [Text.newlines_eq_zero sound inline, Nat.cast_zero, Int.add_zero]
    exact .inl ⟨rfl, by rfl⟩
  | operator => exact .inr (.inl ⟨rfl, _, _, Piece.read_operator _ _ _ _ _⟩)

/-- What a suppressed rule of the language does. -/
theorem Takes.read_of_suppress {rule : Rule} {taken rest : List Character}
    (takes : Takes rule taken rest) (suppressed : rule.suppress = true)
    (sound : ∀ character ∈ taken, character.Sound) (table : KeywordTable) (line : Int)
    (position : Position) :
    Piece.read ⟨rule, Text.ofCharacters taken, position⟩ table line =
      .skipped (line + (Text.ofCharacters taken).newlines) := by
  obtain ⟨_, read⟩ | ⟨kept, _⟩ | ⟨kept, _⟩ := takes.read sound table line position
  · exact read
  · rw [suppressed] at kept
    contradiction
  · rw [suppressed] at kept
    contradiction

/-- No character reaches across the end of a match. -/
theorem Takes.separate {rule : Rule} {taken rest : List Character} (takes : Takes rule taken rest)
    (sound : ∀ character ∈ taken ++ rest, character.Sound) :
    Text.Separate (Text.ofCharacters taken) (Text.ofCharacters rest) := by
  obtain ⟨within, others⟩ := List.forall_mem_append.mp sound
  obtain ⟨front, last, rfl, ascii | stops, _⟩ := takes.ending
  · rw [Text.ofCharacters_append, Text.ofCharacters_cons, Text.ofCharacters_nil, List.append_nil]
    exact ((within last (by simp)).separate ascii _).append _ (within last (by simp)).ne_nil
  · cases rest with
    | nil => exact .inr (by simp)
    | cons first later =>
      have ends := Character.isNewline_iff.mp (by simpa using stops_cons.mp stops)
      refine .inr ?_
      rw [Text.ofCharacters_cons, (others first List.mem_cons_self).ascii (by rw [ends]; decide),
        ends]
      rintro _ ⟨⟩
      rfl

end Lexis

/-! ## Converters of the language -/

namespace Converter

/-- The converters of the language. -/
def language : List Converter :=
  [string, real, integer, identity]

/-- The converters of the language refuse no lexeme for the end of the input. -/
theorem continues_of_language : ∀ converter ∈ language, converter.Continues := by
  have strings : string.Continues := fun lexeme cause refused => by
    cases read : unquote lexeme with
    | ok contents => simp [string, read, Except.map] at refused
    | error fault =>
      obtain rfl : fault = cause := by simpa [string, read, Except.map] using refused
      unfold unquote at read
      split at read
      · dsimp only at read
        split at read
        · contradiction
        · obtain rfl := Except.error.inj read
          rfl
      · obtain rfl := Except.error.inj read
        rfl
  have reals : real.Continues := fun lexeme cause refused => by
    simp only [real] at refused
    split at refused <;> cases refused
    rfl
  have integers : integer.Continues := fun lexeme cause refused => by
    simp only [integer] at refused
    split at refused <;> cases refused
    rfl
  have names : identity.Continues := fun _ _ => nofun
  simp [language, strings, reals, integers, names]

end Converter

namespace Scanner

/-- The rules of the language have its converters. -/
theorem converter_mem_language {table : KeywordTable} {checked : CheckedRule}
    {converter : Converter} (member : checked ∈ (language table).registry.rules)
    (converts : converter ∈ checked.rule.converter) : converter ∈ Converter.language := by
  obtain listed | listed := List.mem_append.mp member
  · simp only [Registry.contents, List.mem_cons, List.not_mem_nil, or_false] at listed
    obtain rfl | rfl | rfl | rfl | rfl | rfl | rfl := listed
    -- The first four rules have a converter, and the others none.
    iterate 4
      · obtain rfl := Option.some.inj converts
        simp [Converter.language]
    all_goals exact absurd converts (Option.not_mem_none converter)
  · obtain ⟨operator, _, rfl⟩ := List.mem_map.mp listed
    exact absurd converts (Option.not_mem_none converter)

/-- No lexeme of the language is refused for the end of the input. -/
theorem language_continues (table : KeywordTable) : (language table).Continues :=
  fun _ member converter converts =>
    Converter.continues_of_language converter (converter_mem_language member converts)

/-- Every scan of the language has a derivation with the error that those who collect tokens get. -/
theorem language_scans (table : KeywordTable) (source : Text) :
    (language table).Scans source.characters .start 1
      ((language table).scanUntilFailure source).1 ((language table).finalLine source)
      ((language table).scanUntilFailure source).2 := by
  rw [← (language_continues table).lastError?_eq source]
  exact (language table).scans source

/-- A derivation tells the outcome of a scan of the language. -/
theorem Scans.eq {table : KeywordTable} {source : Text} {tokens : List Token} {final : Int}
    {error : Option ScanError}
    (derived : (language table).Scans source.characters .start 1 tokens final error) :
    (language table).scanUntilFailure source = (tokens, error) ∧
      (language table).finalLine source = final := by
  obtain ⟨sameTokens, sameLine, sameError⟩ := (language_scans table source).unique derived
  exact ⟨Prod.ext sameTokens sameError, sameLine⟩

end Scanner

/-! ## Steps of a scan of the language -/

namespace Scanner

open Lexis

variable {table : KeywordTable} {taken rest : List Character} {rule : Rule} {position : Position}
  {line final : Int} {tokens : List Token} {error : Option ScanError}

/-- The scanner of the language takes what the grammar says. -/
theorem split?_of_takes (takes : Takes rule taken rest) :
    (language table).registry.split? (taken ++ rest) = some (rule, taken, rest) :=
  split?_language_iff.mpr ⟨rfl, takes⟩

/-- A suppressed match is scanned over. -/
theorem Scans.skip (takes : Takes rule taken rest) (suppressed : rule.suppress = true)
    (sound : ∀ character ∈ taken, character.Sound)
    (later : (language table).Scans rest (position.advance (Text.ofCharacters taken))
      (line + (Text.ofCharacters taken).newlines) tokens final error) :
    (language table).Scans (taken ++ rest) position line tokens final error :=
  .skipped (split?_of_takes takes) (takes.read_of_suppress suppressed sound table line position)
    later

/-- What is left after a suppressed match goes on with its scan. -/
theorem Scans.unskip (takes : Takes rule taken rest) (suppressed : rule.suppress = true)
    (sound : ∀ character ∈ taken, character.Sound)
    (scans : (language table).Scans (taken ++ rest) position line tokens final error) :
    (language table).Scans rest (position.advance (Text.ofCharacters taken))
      (line + (Text.ofCharacters taken).newlines) tokens final error := by
  have left := scans.of_split (split?_of_takes takes)
  rw [show (language table).table = table from rfl,
    takes.read_of_suppress suppressed sound table line position] at left
  exact left

/-- Reading two texts one after the other is reading them in one go, for the place and for the
line counter. -/
theorem Scans.regroup {scanner : Scanner} {characters : List Character} {left right : Text}
    (separate : Text.Separate left right) :
    scanner.Scans characters ((position.advance left).advance right)
        (line + left.newlines + right.newlines) tokens final error ↔
      scanner.Scans characters (position.advance (left ++ right))
        (line + (left ++ right).newlines) tokens final error := by
  rw [position.advance_append separate, Text.newlines_append, Nat.cast_add, Int.add_assoc]

/-- A class whose runs a suppressed rule takes whole can be scanned one character at a time: the
run that the rest starts with, if any, and the character before it are one match. -/
theorem Scans.cons_run {holds : Character → Bool} {character : Character}
    {characters : List Character}
    (runs : ∀ {run rest}, run ≠ [] → (∀ character ∈ run, holds character) → Stops holds rest →
      Takes rule run rest)
    (suppressed : rule.suppress = true) (starts : holds character)
    (ascii : character.scalar.toNat < 0x80)
    (sound : ∀ part ∈ character :: characters, part.Sound)
    (later : (language table).Scans characters (position.advance character.bytes)
      (line + character.bytes.newlines) tokens final error) :
    (language table).Scans (character :: characters) position line tokens final error := by
  obtain ⟨run, left, rfl, all, stops⟩ : ∃ run left, characters = run ++ left ∧
      (∀ part ∈ run, holds part) ∧ Stops holds left :=
    ⟨characters.takeWhile holds, characters.dropWhile holds, by simp,
      fun _ => List.mem_takeWhile_imp, stops_dropWhile holds characters⟩
  obtain ⟨first, others⟩ := List.forall_mem_cons.mp sound
  have within : ∀ part ∈ run, part.Sound := (List.forall_mem_append.mp others).1
  have remaining : (language table).Scans left
      ((position.advance character.bytes).advance (Text.ofCharacters run))
      (line + character.bytes.newlines + (Text.ofCharacters run).newlines) tokens final error := by
    by_cases alone : run = []
    · simpa [alone] using later
    · exact later.unskip (runs alone all stops) suppressed within
  have takes : Takes rule (character :: run) left :=
    runs (by simp) (List.forall_mem_cons.mpr ⟨starts, all⟩) stops
  exact Scans.skip takes suppressed (List.forall_mem_cons.mpr ⟨first, within⟩)
    ((regroup (first.separate ascii _)).mp remaining)

/-- A newline in front is scanned over and counted. -/
theorem Scans.cons_newline {character : Character} {characters : List Character}
    (ends : character.isNewline) (sound : ∀ part ∈ character :: characters, part.Sound)
    (later : (language table).Scans characters (position.advance character.bytes)
      (line + character.bytes.newlines) tokens final error) :
    (language table).Scans (character :: characters) position line tokens final error :=
  cons_run .newlines rfl ends (by rw [Character.isNewline_iff.mp ends]; decide) sound later

/-- A blank in front is scanned over. -/
theorem Scans.cons_blank {character : Character} {characters : List Character}
    (blank : character.isBlank) (sound : ∀ part ∈ character :: characters, part.Sound)
    (later : (language table).Scans characters (position.advance character.bytes)
      (line + character.bytes.newlines) tokens final error) :
    (language table).Scans (character :: characters) position line tokens final error :=
  cons_run .blanks rfl blank (by have := Character.isBlank_iff.mp blank; omega) sound later

end Scanner

end Aml
