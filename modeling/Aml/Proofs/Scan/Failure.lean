import Mathlib
import Aml.Diagnostic.Lexical
import Aml.Proofs.Rule.Acceptance
import Aml.Proofs.Scan.Interleaving
import Aml.Proofs.Scan.LongestMatch
import Aml.Proofs.Scan.Reach
import Aml.Proofs.Scan.Spelling

/-!
# Failures of the language

With the rules of the language a scan fails in two ways only. At an illegal character no rule
matches, and a numeral may denote a number out of range; it is never badly formed, because its rule
has seen to its form (`Lexis.Takes.failure_eq`). Every failure is therefore a `LexicalFault`
(`Scanner.Ends.lexicalFault`) and has a diagnostic at its own position (`LexicalFault.diagnosed`).
What else could go wrong does not: the symbol of a match always stands for its rule, and a string
always stands between its quotes (`Lexis.Takes.convert_string`).
-/
namespace Aml

/-! ## Matches that fail -/

/-- The kind of the tokens that a form of numeral makes. -/
def NumeralForm.kind : NumeralForm → Kind
  | .integer => .operand .integer
  | .real => .operand .real

/-- A match of the language fails only if it is a numeral out of range. -/
theorem Lexis.Takes.failure_eq {rule : Rule} {taken rest : List Character}
    (takes : Takes rule taken rest) (sound : ∀ character ∈ taken, character.Sound)
    {table : KeywordTable} {line : Int} {position : Position} {error : ScanError}
    (failed : Piece.read ⟨rule, Text.ofCharacters taken, position⟩ table line = .failed error) :
    ∃ form : NumeralForm, error = .malformedNumber (Text.ofCharacters taken) form.kind line position
      (some (.numeral form (Text.ofCharacters taken) .outOfRange)) := by
  have kept : rule.suppress ≠ true := by
    intro suppressed
    cases failed.symm.trans (takes.read_of_suppress suppressed sound table line position)
  cases takes with
  | comment | newlines | blanks => exact absurd rfl kept
  | string opens inner closes =>
    rw [ofCharacters_quoted sound opens closes, Piece.read_stringLiteral,
      Converter.unquote_quoted] at failed
    contradiction
  | real signed digits pointed places stops =>
    obtain ⟨negative, spelled, shaped, placed⟩ :=
      ofCharacters_real sound signed digits pointed places
    refine ⟨.real, ?_⟩
    rw [spelled] at failed ⊢
    rw [Piece.read_realNumeral, Numeral.real_numeral negative shaped placed] at failed
    cases nearest : Binary64.nearest? negative _ _ with
    | some number =>
      rw [nearest] at failed
      contradiction
    | none =>
      rw [nearest] at failed
      exact (Reading.failed.inj failed).symm
  | @integer sign whole _ signed digits stops pointless =>
    obtain ⟨negative, spelled, shaped⟩ := ofCharacters_integer sound signed digits
    refine ⟨.integer, ?_⟩
    rw [spelled] at failed ⊢
    rw [Piece.read_integerNumeral, Numeral.decimal_numeral negative shaped] at failed
    by_cases inside : -2 ^ 63 ≤ Numeral.signedValue negative
        (Numeral.value (Text.ofCharacters whole)) ∧
        Numeral.signedValue negative (Numeral.value (Text.ofCharacters whole)) < 2 ^ 63
    · rw [if_pos inside] at failed
      contradiction
    · rw [if_neg inside] at failed
      exact (Reading.failed.inj failed).symm
  | name =>
    rw [Piece.read_identifier] at failed
    contradiction
  | operator =>
    rw [Piece.read_operator] at failed
    contradiction

/-! ## Faults -/

/-- A lexical error of a source, with the code and the position of its diagnostic. -/
inductive LexicalFault (source : Text) : ScanError → (code : Text) → Position → Prop where
  /-- A character of the source, as it is decoded there, at which no rule matches. -/
  | illegal {character : Char} {line : Int} {position : Position}
      (least : 0 ≤ position.offset) (most : position.offset < source.length)
      (decoded : (Text.characters (source.drop position.offset.toNat)).head?.map Character.scalar =
        some character)
      (unmatched : ∀ rule ∈ Rule.defaults, ∀ size,
        ¬rule.Admits (Text.characters (source.drop position.offset.toNat)) size) :
      LexicalFault source (.illegalCharacter character line position) "E0001" position
  /-- A numeral of the source whose number is out of range. -/
  | outOfRange {form : NumeralForm} {lexeme : Text} {line : Int} {position : Position}
      (least : 0 ≤ position.offset) (found : lexeme <+: source.drop position.offset.toNat) :
      LexicalFault source (.malformedNumber lexeme form.kind line position
        (some (.numeral form lexeme .outOfRange))) "E0002" position

/-- A failure that comes down to a lexical error has a diagnostic with its code at its position. -/
theorem LexicalFault.diagnosed {source code : Text} {error : ScanError} {position : Position}
    (fault : LexicalFault source error code position) {failure : Failure}
    (rests : failure.scanError? = some error) :
    ∃ diagnostic, Diagnostic.ofFailure? failure = some diagnostic ∧ diagnostic.code = code ∧
      diagnostic.position = position := by
  rw [Diagnostic.ofFailure?, rests, Option.bind_some]
  cases fault with
  | illegal | outOfRange => exact ⟨_, rfl, rfl, rfl⟩

namespace Scanner

variable {table : KeywordTable} {source : Text} {tokens : List Token} {cursor : Cursor}
  {error : ScanError}

/-- A scan of the language that fails does so with a lexical error at its cursor. -/
theorem Ends.lexicalFault (ends : (language table).Ends cursor (some error))
    (walk : (language table).Reaches (.start source) tokens cursor) :
    ∃ code, LexicalFault source error code cursor.position := by
  obtain ⟨before, whole, bytes, _⟩ := walk.before
  obtain ⟨dropped, remaining⟩ := walk.drop_offset
  have sound := walk.sound
  have least : 0 ≤ cursor.position.offset := by omega
  cases ends with
  | @illegal character rest position line stuck =>
    have most : position.offset < source.length := by
      have total := congrArg List.length (Text.eq_append_of_characters whole)
      have width := List.length_pos_of_ne_nil (sound character List.mem_cons_self).ne_nil
      simp only [Text.ofCharacters_cons, List.length_append] at total
      dsimp only at bytes
      omega
    refine ⟨_, .illegal least most ?_ ?_⟩
    · rw [remaining]
      rfl
    · rw [remaining]
      exact split?_eq_none_iff.mp stuck
  | @failed _ rule taken rest _ split read =>
    obtain ⟨spelled, takes⟩ := Lexis.split?_language_iff.mp split
    rw [spelled] at sound
    obtain ⟨form, rfl⟩ := takes.failure_eq (List.forall_mem_append.mp sound).1 read
    refine ⟨_, .outOfRange least ?_⟩
    rw [dropped, spelled, Text.ofCharacters_append]
    exact List.prefix_append _ _

end Scanner

/-! ## Pieces -/

/-- Every piece of a cut is what a rule of the registry takes at some cursor. -/
theorem Registry.Cuts.split {registry : Registry} {characters : List Character}
    {position : Position} {pieces : List Piece} {ending : Ending}
    (cuts : registry.Cuts characters position pieces ending)
    (sound : ∀ character ∈ characters, character.Sound) :
    ∀ piece ∈ pieces, ∃ taken rest,
      registry.split? (taken ++ rest) = some (piece.rule, taken, rest) ∧
      piece.lexeme = Text.ofCharacters taken ∧ ∀ character ∈ taken, character.Sound := by
  induction cuts with
  | finished | illegal => simp
  | @piece characters taken rest rule position pieces ending split later ih =>
    obtain ⟨whole, _, _⟩ := split?_eq_some_iff.mp split
    rw [whole] at sound split
    obtain ⟨within, others⟩ := List.forall_mem_append.mp sound
    exact List.forall_mem_cons.mpr ⟨⟨taken, rest, split, rfl, within⟩, ih others⟩

/-- What the string rule of the language takes has a value. -/
theorem Lexis.Takes.convert_string {taken rest : List Character}
    (takes : Takes Rule.stringLiteral taken rest)
    (sound : ∀ character ∈ taken, character.Sound) :
    ∃ contents, Converter.string.convert (Text.ofCharacters taken) =
      .ok (some (.string contents)) := by
  obtain ⟨opening, body, closing, rfl, opens, _, closes⟩ :=
    accepts_stringLiteral.mp takes.accepts.2
  refine ⟨Text.ofCharacters body, ?_⟩
  rw [ofCharacters_quoted sound opens closes]
  simp only [Converter.string, Converter.unquote_quoted, Except.map]

/-- Every failure of a scan of the language is lexical. Whatever the source, a stream fails only at
a character inside the source that no rule matches or at a numeral out of range, and every such
failure, in any context, has a diagnostic with the code and the position of the error. No other way
to fail is open: the symbol of every match stands for its rule, and every match of the string rule
has a value. -/
theorem Scanner.failures_lexical {table : KeywordTable} {scanner : Scanner}
    (built : Scanner.build (some table) Rule.defaults = .ok scanner) (source : Text) :
    (∀ calls error, .failed error ∈ (Stream.ask calls (scanner.stream source)).1 →
      ∃ code position, LexicalFault source error code position ∧
        ∀ failure : Failure, failure.scanError? = some error →
          ∃ diagnostic, Diagnostic.ofFailure? failure = some diagnostic ∧
            diagnostic.code = code ∧ diagnostic.position = position) ∧
    ∀ piece ∈ (scanner.registry.cut source).pieces,
      scanner.registry.rule? (scanner.registry.symbol piece.rule.name) = some piece.rule ∧
      (piece.rule = Rule.stringLiteral →
        ∃ contents, Converter.string.convert piece.lexeme = .ok (some (.string contents))) := by
  obtain ⟨words, _, rfl⟩ := language_of_built built
  constructor
  · intro calls error answered
    obtain ⟨_, met⟩ := failed_mem_ask_stream answered
    obtain ⟨cursor, walk, _, ends⟩ := (language_scans words source).exists_reaches
    rw [← (language_continues words).lastError?_eq, met] at ends
    obtain ⟨code, fault⟩ := ends.lexicalFault walk
    exact ⟨code, cursor.position, fault, fun _ => fault.diagnosed⟩
  · intro piece member
    obtain ⟨taken, rest, split, spelled, sound⟩ :=
      (Registry.language.cuts source).split source.sound_of_mem_characters piece member
    constructor
    · obtain ⟨checked, listed, same⟩ := Registry.mem_of_split? split
      rw [← same]
      exact Registry.rule?_symbol listed
    · intro string
      rw [string] at split
      rw [spelled]
      exact (Lexis.split?_language_iff.mp split).2.convert_string sound

/-- A byte that starts no character is an illegal character. -/
theorem Scanner.failures_lexical_malformed :
    .failed (.illegalCharacter Character.replacement 1 ⟨1, 2, 1⟩) ∈
        (Stream.ask 2 ((language .empty).stream [97, 0xFF])).1 ∧
      ∃ code position,
        LexicalFault [97, 0xFF] (.illegalCharacter Character.replacement 1 ⟨1, 2, 1⟩) code
          position ∧
        ∀ failure : Failure,
          failure.scanError? = some (.illegalCharacter Character.replacement 1 ⟨1, 2, 1⟩) →
          ∃ diagnostic, Diagnostic.ofFailure? failure = some diagnostic ∧
            diagnostic.code = code ∧ diagnostic.position = position := by
  have answered : .failed (.illegalCharacter Character.replacement 1 ⟨1, 2, 1⟩) ∈
      (Stream.ask 2 ((language .empty).stream [97, 0xFF])).1 := by
    decide
  exact ⟨answered, (failures_lexical (build_defaults .empty) _).1 2 _ answered⟩

end Aml
