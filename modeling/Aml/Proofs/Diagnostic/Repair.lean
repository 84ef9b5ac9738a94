import Mathlib
import Aml.Proofs.Scan.Illegal
import Aml.Proofs.Scan.Numeral
import Aml.Proofs.Scan.Truncation

/-!
# Replacements that repair

The diagnostic of an illegal character may suggest an operator in its place. Each such operator has
two characters and starts with the illegal one (`Diagnostic.replacement_completes`), so the text that
earlier matches can tell stays the same: a match looks at most at one character after it that is no
point (`Lexis.Takes.replace_rest`). The scan of the repaired source therefore gets to the same place
with the same tokens, and there it takes the whole operator, whatever follows
(`Scanner.replacement_repairs`).
-/
namespace Aml

/-! ## What is replaced -/

namespace Diagnostic

/-- A source with the span of a diagnostic replaced by a text. -/
def replaceSpan (diagnostic : Diagnostic) (replacement source : Text) : Text :=
  source.take diagnostic.position.offset.toNat ++ replacement ++
    source.drop (diagnostic.position.offset + diagnostic.length).toNat

/-- A replacement for a character: the spelling of an operator of two ASCII characters that starts
with it. -/
structure Completes (replacement : Text) (operator : Operator) (character : Char)
    (first second : UInt8) : Prop where
  bytes : replacement = [first, second]
  ascii : first.toNat < 0x80 ∧ second.toNat < 0x80
  starts : (Character.ofByte first).scalar = character
  scalars : operator.scalars = [(Character.ofByte first).scalar, (Character.ofByte second).scalar]
  plain : character ≠ '.'

/-- Only an illegal character has a suggestion with a replacement, which starts with it. -/
theorem replacement_completes {error : ScanError} {diagnostic : Diagnostic} {suggestion : Suggestion}
    (diagnosed : ofFailure? (.scan error) = some diagnostic)
    (listed : suggestion ∈ diagnostic.suggestions) (present : suggestion.replacement ≠ []) :
    ∃ character line operator first second,
      error = .illegalCharacter character line diagnostic.position ∧ diagnostic.length = 1 ∧
        Completes suggestion.replacement operator character first second := by
  have found : ofScanError? error = some diagnostic := diagnosed
  cases error with
  | conversion | noRule | unlocated => contradiction
  | malformedNumber =>
    obtain rfl := Option.some.inj found
    contradiction
  | illegalCharacter character line position =>
    obtain rfl := Option.some.inj found
    have suggested := Option.mem_toList.mp listed
    unfold suggestion? at suggested
    split at suggested
    case h_1 =>
      obtain rfl := Option.some.inj suggested
      exact ⟨_, _, .land, _, _, rfl, rfl, rfl, by decide, rfl, rfl, by decide⟩
    case h_2 =>
      obtain rfl := Option.some.inj suggested
      exact ⟨_, _, .lor, _, _, rfl, rfl, rfl, by decide, rfl, rfl, by decide⟩
    case h_3 =>
      obtain rfl := Option.some.inj suggested
      exact ⟨_, _, .notEqual, _, _, rfl, rfl, rfl, by decide, rfl, rfl, by decide⟩
    case h_8 => contradiction
    all_goals
      -- The other suggestions replace nothing.
      obtain rfl := Option.some.inj suggested
      exact absurd rfl present

/-- Replacing an ASCII character after others by two puts these in its place. -/
theorem characters_replaceSpan {diagnostic : Diagnostic} {source : Text}
    {front rest : List Character} {byte first second : UInt8}
    (whole : source.characters = front ++ Character.ofByte byte :: rest)
    (placed : diagnostic.position.offset = (Text.ofCharacters front).length)
    (single : diagnostic.length = 1) (low : first.toNat < 0x80) (small : second.toNat < 0x80) :
    (diagnostic.replaceSpan [first, second] source).characters =
      front ++ Character.ofByte first :: Character.ofByte second :: rest := by
  have later : source.characters = (front ++ [Character.ofByte byte]) ++ rest :=
    whole.trans (List.append_cons front _ rest)
  have taken : source.take diagnostic.position.offset.toNat = Text.ofCharacters front := by
    rw [placed, Int.toNat_natCast]
    exact Text.take_of_characters whole
  have dropped : source.drop (diagnostic.position.offset + diagnostic.length).toNat =
      Text.ofCharacters rest := by
    have stop : (diagnostic.position.offset + diagnostic.length).toNat =
        (Text.ofCharacters (front ++ [Character.ofByte byte])).length := by
      rw [placed, single, Text.ofCharacters_append, List.length_append]
      rfl
    rw [stop]
    exact Text.drop_of_characters later
  have seam : Text.Separate (Text.ofCharacters front)
      (first :: second :: Text.ofCharacters rest) := by
    refine .inr ?_
    rintro _ ⟨⟩
    exact Bool.eq_false_iff.mpr fun continues => by
      have := Text.isContinuation_le continues
      omega
  rw [replaceSpan, taken, dropped, List.append_assoc]
  change (Text.ofCharacters front ++ first :: second :: Text.ofCharacters rest).characters = _
  rw [Text.characters_append seam, Text.characters_cons_ascii low, Text.characters_cons_ascii small,
    Text.characters_ofCharacters_left whole,
    Text.characters_ofCharacters_right later]

end Diagnostic

/-! ## What is taken -/

namespace Lexis

variable {rule : Rule} {taken middle rest more : List Character} {mark : Character}

/-- A match tells nothing that comes after a character that it leaves, unless this is a point. -/
theorem Takes.replace_rest (takes : Takes rule taken (middle ++ mark :: rest))
    (plain : mark.scalar ≠ '.') : Takes rule taken (middle ++ mark :: more) := by
  rw [List.append_cons] at takes ⊢
  exact takes.truncate.append ⟨middle, mark, rfl, plain⟩

/-- An operator of two characters is taken whatever follows it. -/
theorem takes_pair {operator : Operator} {first second : Character}
    (spelled : operator.scalars = [first.scalar, second.scalar]) :
    Takes operator.rule [first, second] rest := by
  refine .operator spelled.symm (fun other _ => ?_) ?_
  · rw [spelled]
    exact scalars_length_le other
  · rintro rfl
    have sized : 1 = 2 := congrArg List.length spelled
    omega

end Lexis

open Diagnostic Lexis in
/-- Replacements repair. With the rules of the language and any keyword table, let a scan fail with
an error whose diagnostic suggests a replacement, and replace the span of the diagnostic by it. A
stream of the repaired source gives the tokens that the stream of the source has given before the
error, and then the replacement as an operator, at the position and on the line of the error. -/
theorem Scanner.replacement_repairs {table : Option KeywordTable} {scanner : Scanner}
    (built : Scanner.build table Rule.defaults = .ok scanner) {source : Text} {error : ScanError}
    (failed : scanner.scan source = .error error) {diagnostic : Diagnostic}
    (diagnosed : ofFailure? (.scan error) = some diagnostic) {suggestion : Suggestion}
    (listed : suggestion ∈ diagnostic.suggestions) (present : suggestion.replacement ≠ []) :
    ∃ tokens character line operator,
      error = .illegalCharacter character line diagnostic.position ∧
      (Stream.ask (tokens.length + 1) (scanner.stream source)).1 =
        tokens.map .token ++ [.failed error] ∧
      scanner.Emits (diagnostic.replaceSpan suggestion.replacement source) tokens
        ⟨.operator operator, suggestion.replacement, none, line, diagnostic.position⟩ := by
  obtain ⟨words, _, rfl⟩ := language_of_built built
  obtain ⟨character, line, operator, first, second, rfl, single, bytes, ⟨low, small⟩, starts,
    scalars, plain⟩ := replacement_completes diagnosed listed present
  obtain ⟨mark, rest, valued, walk, _⟩ := exists_reaches_of_illegal failed
  obtain ⟨front, whole, placed, _⟩ := walk.before
  have marked : mark = .ofByte first := by
    refine (walk.sound mark List.mem_cons_self).eq_ofByte low ?_
    rw [valued, ← starts, Character.ofByte_toNat low]
  subst marked
  refine ⟨((language words).scanUntilFailure source).1, character, line, operator, rfl, ?_, ?_⟩
  · have last := lastError?_of_scanUntilFailure (scan_eq_error_iff.mp failed)
    rw [((language words).ask_stream source _).1, last]
    simp [Answer.last]
  · have again := walk.with_rest whole (.ofByte first :: .ofByte second :: rest)
      fun takes => takes.replace_rest (valued ▸ plain)
    rw [← characters_replaceSpan whole placed single low small] at again
    rw [bytes]
    exact Reaches.emits again (split?_of_takes (takes_pair scalars))
      (Piece.read_operator words [first, second] line diagnostic.position operator)

/-- A mark is completed before another one, which stays illegal. -/
theorem Scanner.replacement_repairs_doubled :
    (language .empty).scan ("a & &b" : String) = .error (.illegalCharacter '&' 1 ⟨1, 3, 2⟩) ∧
      ∃ tokens operator,
        (Stream.ask (tokens.length + 1) ((language .empty).stream ("a & &b" : String))).1 =
          tokens.map .token ++ [.failed (.illegalCharacter '&' 1 ⟨1, 3, 2⟩)] ∧
        (language .empty).Emits ("a && &b" : String) tokens
          ⟨.operator operator, "&&", none, 1, ⟨1, 3, 2⟩⟩ := by
  have failed : (language .empty).scan ("a & &b" : String) =
      .error (.illegalCharacter '&' 1 ⟨1, 3, 2⟩) := by rfl
  have listed : ⟨"did you mean '&&'?", "&&"⟩ ∈
      (Diagnostic.illegalCharacter '&' ⟨1, 3, 2⟩).suggestions := List.mem_singleton_self _
  obtain ⟨tokens, character, line, operator, same, before, after⟩ :=
    replacement_repairs (build_defaults .empty) failed rfl listed (by decide)
  cases same
  exact ⟨failed, tokens, operator, before, after⟩

end Aml
