import Mathlib
import Aml.Proofs.Scan.Lossless
import Aml.Proofs.Scan.Reach
import Aml.Proofs.Scan.Spelling

/-!
# Well-formed tokens

`Token.WellFormed` says for each kind of token what its text and its value are and where it ends.
Every token of the language has a spelling, which settles the text and the value
(`Spelling.wellFormed`); the rule that takes the spelling settles the end, because names and
numerals are taken as far as they go (`Lexis.Takes.stops`). Inside a string every quote is escaped,
and the closing quote is not (`Text.Quotable`); the parts of a string keep that up one after the
other.
-/
namespace Aml

/-! ## Escapes in strings -/

/-- The byte that escapes the one after it. -/
def Converter.backslash : UInt8 := 92

namespace Text

/-- Whether the byte after a text is escaped: the text ends in a backslash that is not escaped
itself. -/
def escapesNext (text : Text) : Bool :=
  text.foldl (fun escaped byte => !escaped && decide (byte = Converter.backslash)) false

/-- After a text that escapes nothing, escapes start afresh. -/
theorem escapesNext_append {left : Text} (complete : left.escapesNext = false) (right : Text) :
    (left ++ right).escapesNext = right.escapesNext := by
  unfold escapesNext at complete ⊢
  rw [List.foldl_append, complete]

/-- Without a backslash nothing is escaped. -/
theorem escapesNext_eq_false {text : Text} (absent : Converter.backslash ∉ text) :
    text.escapesNext = false := by
  induction text with
  | nil => rfl
  | cons byte rest ih =>
    have other : byte ≠ Converter.backslash := fun same => absent (by simp [same])
    have single : escapesNext [byte] = false := by
      simp [escapesNext, other]
    exact (escapesNext_append single rest).trans (ih fun member => absent (by simp [member]))

/-- A text that may stand between quotes: every quote in it is escaped, and the one after it is
not. -/
structure Quotable (text : Text) : Prop where
  escaped : ∀ front back, text = front ++ Converter.quote :: back → front.escapesNext = true
  closed : text.escapesNext = false

/-- Nothing may stand between quotes. -/
theorem Quotable.nil : Quotable [] :=
  ⟨by simp, rfl⟩

/-- Texts that may stand between quotes may do so in a row. -/
theorem Quotable.append {left right : Text} (one : left.Quotable) (other : right.Quotable) :
    (left ++ right).Quotable := by
  refine ⟨fun front back split => ?_, ?_⟩
  · obtain ⟨middle, rfl, inside⟩ | ⟨middle, whole, remaining⟩ :=
      List.append_eq_append_iff.mp split
    · rw [escapesNext_append one.closed]
      exact other.escaped middle back inside
    · cases middle with
      | nil =>
        -- The quote would be the first byte on the right, where nothing is escaped.
        have unescaped := other.escaped [] back remaining.symm
        contradiction
      | cons byte later =>
        obtain ⟨rfl, _⟩ := List.cons.inj remaining
        exact one.escaped front later whole
  · rw [escapesNext_append one.closed]
    exact other.closed

end Text

namespace Character

variable {character : Character}

/-- A sound character has no byte in ASCII after its first one. -/
theorem Sound.foreign_tail (sound : character.Sound) :
    ∀ byte ∈ character.bytes.tail, 0x80 ≤ byte.toNat := by
  by_cases ascii : character.scalar.toNat < 0x80
  · simp [sound.ascii ascii]
  · intro byte member
    exact sound.foreign (by omega) byte (List.mem_of_mem_tail member)

/-- A character that is neither a quote nor a backslash may stand between quotes. -/
theorem Sound.quotable (sound : character.Sound) (unquoted : character.scalar ≠ '"')
    (unescaped : character.scalar ≠ '\\') : character.bytes.Quotable := by
  have quoteless : Converter.quote ∉ character.bytes := by
    rw [sound.ascii_mem_iff (by decide)]
    exact mt (scalar_eq_iff '"').mpr unquoted
  have plain : Converter.backslash ∉ character.bytes := by
    rw [sound.ascii_mem_iff (by decide)]
    exact mt (scalar_eq_iff '\\').mpr unescaped
  refine ⟨fun front back split => ?_, Text.escapesNext_eq_false plain⟩
  rw [split] at quoteless
  simp at quoteless

/-- Any character may stand between quotes after a backslash. -/
theorem Sound.quotable_escaped (sound : character.Sound) :
    Text.Quotable (Converter.backslash :: character.bytes) := by
  have foreign := sound.foreign_tail
  obtain ⟨first, tail, spelled⟩ := List.exists_cons_of_ne_nil sound.ne_nil
  rw [spelled] at foreign ⊢
  have quoteless : Converter.quote ∉ tail := fun member =>
    absurd (foreign _ member) (by decide)
  have plain : Converter.backslash ∉ tail := fun member =>
    absurd (foreign _ member) (by decide)
  have pair : Text.escapesNext [Converter.backslash, first] = false := by
    simp [Text.escapesNext]
  refine ⟨fun front back split => ?_, ?_⟩
  · cases front with
    | nil => exact absurd (List.cons.inj split).1 (by decide)
    | cons byte later =>
      obtain ⟨rfl, inside⟩ := List.cons.inj split
      cases later with
      | nil => rfl
      | cons other others =>
        obtain ⟨_, rfl⟩ := List.cons.inj inside
        simp at quoteless
  · exact (Text.escapesNext_append pair tail).trans (Text.escapesNext_eq_false plain)

end Character

/-- The inside of a string may stand between quotes. -/
theorem Lexis.IsBody.quotable {body : List Character} (inner : IsBody body)
    (sound : ∀ character ∈ body, character.Sound) : (Text.ofCharacters body).Quotable := by
  induction inner with
  | nil => exact .nil
  | plain unquoted unescaped _ ih =>
    obtain ⟨first, later⟩ := List.forall_mem_cons.mp sound
    exact (first.quotable unquoted unescaped).append (ih later)
  | @escape backslash escaped rest escapes inline _ ih =>
    obtain ⟨first, others⟩ := List.forall_mem_cons.mp sound
    obtain ⟨second, later⟩ := List.forall_mem_cons.mp others
    have spelled : backslash.bytes = [Converter.backslash] := by
      rw [first.ascii (by rw [escapes]; decide), escapes]
      rfl
    have joined : Text.ofCharacters (backslash :: escaped :: rest) =
        (Converter.backslash :: escaped.bytes) ++ Text.ofCharacters rest := by
      simp [spelled]
    rw [joined]
    exact second.quotable_escaped.append (ih later)

/-! ## Ends of tokens -/

namespace Lexis

variable {rule : Rule} {taken rest : List Character}

/-- Names and numerals are taken as far as they go. -/
theorem Takes.stops (takes : Takes rule taken rest) :
    (rule.kind = .operand .identifier → Stops Character.isNamePart rest) ∧
      (rule.kind = .operand .integer ∨ rule.kind = .operand .real →
        Stops Character.isDigit rest) := by
  cases takes with
  | string => simp [Rule.stringLiteral]
  | real _ _ _ _ stops => exact ⟨by simp [Rule.realNumeral], fun _ => stops⟩
  | integer _ _ stops => exact ⟨by simp [Rule.integerNumeral], fun _ => stops⟩
  | name _ _ stops => exact ⟨fun _ => stops, by simp [Rule.identifier]⟩
  | comment => simp [Rule.comment, Kind.first]
  | newlines => simp [Rule.newlineRun, Kind.first]
  | blanks => simp [Rule.blankRun, Kind.first]
  | operator => simp [Operator.rule, Rule.ofOperator]

/-- What stops a class of characters starts with no byte of the class. -/
theorem Stops.head? {holds : Character → Bool} (stops : Stops holds rest)
    (sound : ∀ character ∈ rest, character.Sound) {among : UInt8 → Bool}
    (ascii : ∀ byte, among byte → byte.toNat < 0x80)
    (alike : ∀ (character : Character) (byte : UInt8),
      character.scalar.toNat = byte.toNat → among byte → holds character) :
    ∀ byte ∈ (Text.ofCharacters rest).head?, among byte = false := by
  intro byte found
  cases rest with
  | nil => simp at found
  | cons character others =>
    have within := sound character List.mem_cons_self
    have member : byte ∈ character.bytes := by
      obtain ⟨first, tail, spelled⟩ := List.exists_cons_of_ne_nil within.ne_nil
      rw [Text.ofCharacters_cons, spelled] at found
      rw [spelled, ← Option.some.inj found]
      exact List.mem_cons_self
    by_contra goesOn
    have listed : among byte := by simpa using goesOn
    have value := (within.ascii_mem_iff (ascii byte listed)).mp member
    have holding := alike character byte value listed
    rw [stops_cons.mp stops] at holding
    contradiction

/-- What stops names starts with no byte that a name goes on with. -/
theorem Stops.head?_isPart (stops : Stops Character.isNamePart rest)
    (sound : ∀ character ∈ rest, character.Sound) :
    ∀ byte ∈ (Text.ofCharacters rest).head?, Name.isPart byte = false := by
  apply stops.head? sound
  · intro byte part
    have := Name.isPart_iff.mp part
    omega
  · intro character byte value part
    rw [Character.isNamePart_iff, value]
    exact Name.isPart_iff.mp part

/-- What stops digits starts with no digit. -/
theorem Stops.head?_isDigit (stops : Stops Character.isDigit rest)
    (sound : ∀ character ∈ rest, character.Sound) :
    ∀ byte ∈ (Text.ofCharacters rest).head?, Numeral.isDigit byte = false := by
  apply stops.head? sound
  · intro byte digit
    have := Numeral.isDigit_iff.mp digit
    omega
  · intro character byte value digit
    rw [Character.isDigit_iff, value]
    exact Numeral.isDigit_iff.mp digit

end Lexis

/-! ## Tokens -/

/-- What the text and the value of a token are, by its kind, and where it ends in front of the text
after it. -/
def Token.WellFormed (table : KeywordTable) (after : Text) (token : Token) : Prop :=
  match token.kind with
  | .reserved kind =>
    table.lookup? token.lexeme = some kind ∧ token.value = none ∧
      ∀ byte ∈ after.head?, Name.isPart byte = false
  | .operator _ => token.lexeme = token.kind.spelling ∧ token.value = none
  | .operand .identifier =>
    Name.isName token.lexeme ∧ table.lookup? token.lexeme = none ∧
      token.value = some (.string token.lexeme) ∧ ∀ byte ∈ after.head?, Name.isPart byte = false
  | .operand .string =>
    ∃ contents : Text, token.lexeme = Converter.quote :: (contents ++ [Converter.quote]) ∧
      token.value = some (.string contents) ∧ contents.Quotable
  | .operand .integer =>
    ∃ negative digits, token.lexeme = Numeral.sign negative ++ digits ∧
      Numeral.IsNumeral digits ∧
      -2 ^ 63 ≤ Numeral.signedValue negative (Numeral.value digits) ∧
      Numeral.signedValue negative (Numeral.value digits) < 2 ^ 63 ∧
      token.value = some (.integer (Numeral.signedValue negative (Numeral.value digits))) ∧
      ∀ byte ∈ after.head?, Numeral.isDigit byte = false
  | .operand .real =>
    ∃ negative whole places number,
      token.lexeme = Numeral.sign negative ++ (whole ++ Numeral.point :: places) ∧
      Numeral.IsNumeral whole ∧ Numeral.IsNumeral places ∧
      Binary64.nearest? negative (Numeral.value (whole ++ places)) (10 ^ places.length) =
        some number ∧
      token.value = some (.real number) ∧ ∀ byte ∈ after.head?, Numeral.isDigit byte = false
  | .undeclared _ => False

/-- The token of a spelling is well formed in front of what stops the rule of the spelling. -/
theorem Spelling.wellFormed (spelling : Spelling) (table : KeywordTable) (line : Int)
    (position : Position) {after : Text}
    (name : spelling.rule.kind = .operand .identifier →
      ∀ byte ∈ after.head?, Name.isPart byte = false)
    (numeral : spelling.rule.kind = .operand .integer ∨ spelling.rule.kind = .operand .real →
      ∀ byte ∈ after.head?, Numeral.isDigit byte = false) :
    (spelling.token table line position).WellFormed table after := by
  cases spelling with
  | word text shaped =>
    cases found : table.lookup? text with
    | none =>
      have made : (word text shaped).token table line position =
          ⟨.operand .identifier, text, some (.string text), line, position⟩ := by
        simp only [token, kind, value, Spelling.text, found]
      rw [made]
      exact ⟨shaped, found, rfl, name rfl⟩
    | some reserved =>
      have made : (word text shaped).token table line position =
          ⟨.reserved reserved, text, none, line, position⟩ := by
        simp only [token, kind, value, Spelling.text, found]
      rw [made]
      exact ⟨found, rfl, name rfl⟩
  | operator symbol => exact ⟨rfl, rfl⟩
  | integer negative digits shaped least most =>
    exact ⟨negative, digits, rfl, shaped, least, most, rfl, numeral (.inl rfl)⟩
  | real negative whole places shaped placed finite =>
    have found := (Binary64.nearest?_isSome_iff negative _ (Nat.pow_pos (by norm_num))).mpr finite
    obtain ⟨number, nearest⟩ := Option.isSome_iff_exists.mp found
    refine ⟨negative, whole, places, number, rfl, shaped, placed, nearest, ?_, numeral (.inr rfl)⟩
    simp only [token, value, nearest, Option.map_some]
  | string body inner =>
    have inside := inner.quotable body.sound_of_mem_characters
    rw [Text.ofCharacters_characters] at inside
    exact ⟨body, rfl, rfl, inside⟩

namespace Scanner

/-- Every token that a stream of the language produces is well formed: it stands in the source at
its own offset, and its kind, its text, its value and what follows it fit together. -/
theorem tokens_wellFormed {table : KeywordTable} {scanner : Scanner}
    (built : Scanner.build (some table) Rule.defaults = .ok scanner) (source : Text) (calls : Nat) :
    ∀ token ∈ Stream.produced calls (scanner.stream source),
      ∃ before after, source = before ++ (token.lexeme ++ after) ∧
        token.position.offset = before.length ∧ token.WellFormed table after := by
  obtain ⟨words, same, rfl⟩ := language_of_built built
  obtain rfl := Option.some.inj same
  intro token member
  rw [produced_stream] at member
  obtain ⟨earlier, later, listed⟩ := List.append_of_mem (List.mem_of_mem_take member)
  have scans := language_scans table source
  rw [listed] at scans
  obtain ⟨cursor, rule, taken, rest, walk, split, read⟩ := scans.exists_reaches_token
  obtain ⟨before, whole, bytes, _⟩ := walk.before
  obtain ⟨remaining, takes⟩ := Lexis.split?_language_iff.mp split
  have sound := walk.sound
  rw [remaining] at whole sound
  have after := (List.forall_mem_append.mp sound).2
  obtain ⟨spelling, rfl, spelled⟩ :=
    takes.exists_spelling (Text.characters_ofCharacters whole) read
  have made : token = spelling.token table cursor.line cursor.position := by
    rw [readAt, ← spelled] at read
    exact Reading.token.inj (read.symm.trans (spelling.read table cursor.line cursor.position))
  have joined := Text.eq_append_of_characters whole
  rw [Text.ofCharacters_append, ← spelled] at joined
  rw [made]
  refine ⟨Text.ofCharacters before, Text.ofCharacters rest, joined, bytes, ?_⟩
  apply spelling.wellFormed
  · intro identifier
    exact (takes.stops.1 identifier).head?_isPart after
  · intro number
    exact (takes.stops.2 number).head?_isDigit after

/-- A string with an escaped quote in it is a token, and is well formed. -/
theorem tokens_wellFormed_escaped :
    ∃ token ∈ Stream.produced 1 ((language .empty).stream (" \"a\\\"b\"" : String)),
      token.value = some (.string ("a\\\"b" : String)) ∧
      ∃ before after, Text.ofString " \"a\\\"b\"" = before ++ (token.lexeme ++ after) ∧
        token.position.offset = before.length ∧ token.WellFormed .empty after := by
  have produced : ⟨.operand .string, ("\"a\\\"b\"" : String),
      some (.string ("a\\\"b" : String)), 1, ⟨1, 2, 1⟩⟩ ∈
      Stream.produced 1 ((language .empty).stream (" \"a\\\"b\"" : String)) := by
    decide
  exact ⟨_, produced, rfl, tokens_wellFormed (build_defaults .empty) _ 1 _ produced⟩

end Scanner

end Aml
