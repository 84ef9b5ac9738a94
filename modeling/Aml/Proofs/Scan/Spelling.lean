import Mathlib
import Aml.Proofs.Number.Numeral
import Aml.Proofs.Scan.Language

/-!
# Spellings of tokens

A `Spelling` is a text of one of the five classes of tokens, together with the proof that it is
one, and knows the kind and the value of its token. Before a gap, or at the end, the rule of its
class takes the spelling whole (`Spelling.takes`) and makes that token of it (`Spelling.read`).
Conversely, every token that the language makes has a spelling for its text
(`Lexis.Takes.exists_spelling`).
-/
namespace Aml

/-- The text of a token of the language. -/
inductive Spelling where
  /-- A name, which may be a keyword. -/
  | word (text : Text) (shaped : Name.isName text)
  /-- The fixed text of an operator. -/
  | operator (symbol : Operator)
  /-- A decimal integer that fits in 64 bits with sign. -/
  | integer (negative : Bool) (digits : Text) (shaped : Numeral.IsNumeral digits)
      (least : -2 ^ 63 ≤ Numeral.signedValue negative (Numeral.value digits))
      (most : Numeral.signedValue negative (Numeral.value digits) < 2 ^ 63)
  /-- Digits around a point that denote a number in the range of double precision. -/
  | real (negative : Bool) (whole places : Text) (shaped : Numeral.IsNumeral whole)
      (placed : Numeral.IsNumeral places)
      (finite : Numeral.value (whole ++ places) < Binary64.overflow * 10 ^ places.length)
  /-- A string around its inside. -/
  | string (body : Text) (sound : Lexis.IsBody body.characters)

namespace Spelling

/-- The bytes of a spelling. -/
def text : Spelling → Text
  | .word text _ => text
  | .operator symbol => symbol.spelling
  | .integer negative digits _ _ _ => Numeral.sign negative ++ digits
  | .real negative whole places _ _ _ =>
    Numeral.sign negative ++ (whole ++ Numeral.point :: places)
  | .string body _ => Converter.quote :: (body ++ [Converter.quote])

/-- The rule that takes a spelling. -/
def rule : Spelling → Rule
  | .word _ _ => Rule.identifier
  | .operator symbol => symbol.rule
  | .integer _ _ _ _ _ => Rule.integerNumeral
  | .real _ _ _ _ _ _ => Rule.realNumeral
  | .string _ _ => Rule.stringLiteral

/-- The kind of the token of a spelling: a word of the table is reserved. -/
def kind (table : KeywordTable) : Spelling → Kind
  | .word text _ =>
    match table.lookup? text with
    | some kind => .reserved kind
    | none => .operand .identifier
  | .operator symbol => .operator symbol
  | .integer _ _ _ _ _ => .operand .integer
  | .real _ _ _ _ _ _ => .operand .real
  | .string _ _ => .operand .string

/-- The value of the token of a spelling: a name is its own value, an integer the number it
denotes, a real the number nearest to the fraction it denotes, a string its inside; keywords and
operators have none. -/
def value (table : KeywordTable) : Spelling → Option Value
  | .word text _ =>
    match table.lookup? text with
    | some _ => none
    | none => some (.string text)
  | .operator _ => none
  | .integer negative digits _ _ _ =>
    some (.integer (Numeral.signedValue negative (Numeral.value digits)))
  | .real negative whole places _ _ _ =>
    (Binary64.nearest? negative (Numeral.value (whole ++ places)) (10 ^ places.length)).map .real
  | .string body _ => some (.string body)

/-- The token of a spelling on a line at a place. -/
def token (table : KeywordTable) (line : Int) (position : Position) (spelling : Spelling) :
    Token :=
  ⟨spelling.kind table, spelling.text, spelling.value table, line, position⟩

/-- The rule of a spelling makes its token. -/
theorem read (spelling : Spelling) (table : KeywordTable) (line : Int) (position : Position) :
    Piece.read ⟨spelling.rule, spelling.text, position⟩ table line =
      .token (spelling.token table line position) := by
  cases spelling with
  | word text shaped =>
    rw [rule, Spelling.text, Piece.read_identifier, token, kind, value]
    cases table.lookup? text <;> rfl
  | operator symbol => exact Piece.read_operator ..
  | integer negative digits shaped least most =>
    rw [rule, Spelling.text, Piece.read_integerNumeral, Numeral.decimal_numeral negative shaped,
      if_pos ⟨least, most⟩]
    rfl
  | real negative whole places shaped placed finite =>
    have found := (Binary64.nearest?_isSome_iff negative _ (Nat.pow_pos (by norm_num))).mpr finite
    obtain ⟨number, nearest⟩ := Option.isSome_iff_exists.mp found
    rw [rule, Spelling.text, Piece.read_realNumeral, Numeral.real_numeral negative shaped placed,
      nearest, token, kind, value, nearest]
    rfl
  | string body sound =>
    rw [rule, Spelling.text, Piece.read_stringLiteral, Converter.unquote_quoted]
    rfl

end Spelling

/-! ## Spellings before gaps -/

namespace Lexis

/-- What is left is nothing or starts a gap. -/
def StartsGap (rest : List Character) : Prop :=
  ∀ character ∈ rest.head?, character.scalar.toNat = 32 ∨ character.scalar.toNat = 9 ∨
    character.scalar.toNat = 10 ∨ character.scalar.toNat = 35

variable {rest : List Character}

/-- A gap stops every class that its first characters are outside of. -/
theorem StartsGap.stops {holds : Character → Bool} (starts : StartsGap rest)
    (outside : ∀ character, holds character → character.scalar.toNat ≠ 32 ∧
      character.scalar.toNat ≠ 9 ∧ character.scalar.toNat ≠ 10 ∧ character.scalar.toNat ≠ 35) :
    Stops holds rest := by
  intro character found
  have first := starts character found
  by_contra member
  have := outside character (by simpa using member)
  omega

/-- Digits stop at a gap. -/
theorem StartsGap.stops_isDigit (starts : StartsGap rest) : Stops Character.isDigit rest :=
  starts.stops fun character numeric => by
    have := Character.isDigit_iff.mp numeric
    omega

/-- No fraction starts at a gap. -/
theorem StartsGap.fraction?_eq_none (starts : StartsGap rest) : fraction? rest = none := by
  cases rest with
  | nil => rfl
  | cons character others =>
    have first := starts character rfl
    have plain : character.scalar ≠ '.' := by
      intro point
      have value : character.scalar.toNat = 46 := (Character.scalar_eq_iff _).mp point
      omega
    rw [fraction?, if_neg plain]

/-- No operator goes on into a gap. -/
theorem StartsGap.operator_le {taken : List Character} {other : Operator} (starts : StartsGap rest)
    (begins : startsWith other.scalars (taken ++ rest)) : other.scalars.length ≤ taken.length := by
  obtain ⟨tail, split⟩ := startsWith_iff.mp begins
  rw [List.map_append] at split
  obtain ⟨middle, whole, _⟩ | ⟨middle, whole, left⟩ := List.append_eq_append_iff.mp split
  · have sized := congrArg List.length whole
    rw [List.length_map, List.length_append] at sized
    omega
  · cases middle with
    | nil =>
      rw [whole, List.append_nil, List.length_map]
    | cons scalar others =>
      obtain ⟨first, _, rfl, rfl, _⟩ := List.map_eq_cons_iff.mp left
      have gap := starts first rfl
      have outside := scalars_ascii other first.scalar (by simp [whole])
      omega

/-- The characters of digits are digits. -/
theorem isDigits_of_isNumeral {digits : Text} (shaped : Numeral.IsNumeral digits) :
    IsDigits (digits.map Character.ofByte) := by
  refine ⟨by simp [shaped.present], ?_⟩
  intro character member
  obtain ⟨byte, listed, rfl⟩ := List.mem_map.mp member
  have bounds := Numeral.isDigit_iff.mp (shaped.numeric byte listed)
  rw [Character.isDigit_iff, Character.ofByte_toNat (by omega)]
  exact bounds

/-- The characters of a sign are a sign. -/
theorem isSign_sign (negative : Bool) : IsSign ((Numeral.sign negative).map Character.ofByte) := by
  cases negative with
  | false => exact .inl rfl
  | true => exact .inr ⟨_, rfl, rfl⟩

end Lexis

namespace Numeral

/-- Signs are in ASCII. -/
theorem ascii_sign (negative : Bool) : ∀ byte ∈ sign negative, byte.toNat < 0x80 := by
  cases negative <;> simp [sign]

/-- Digits are in ASCII. -/
theorem ascii_of_isNumeral {digits : Text} (shaped : IsNumeral digits) :
    ∀ byte ∈ digits, byte.toNat < 0x80 := by
  intro byte member
  have := isDigit_iff.mp (shaped.numeric byte member)
  omega

end Numeral

/-- The bytes that a name goes on with. -/
theorem Name.isPart_iff {byte : UInt8} :
    Name.isPart byte ↔ 97 ≤ byte.toNat ∧ byte.toNat ≤ 122 ∨ 65 ≤ byte.toNat ∧ byte.toNat ≤ 90 ∨
      byte.toNat = 95 ∨ 48 ≤ byte.toNat ∧ byte.toNat ≤ 57 := by
  simp [isPart, isLetter, UInt8.le_iff_toNat_le, ← UInt8.toNat_inj]
  omega

/-- A name is a letter and the bytes that go on with it. -/
theorem Name.isName_iff {text : Text} :
    Name.isName text ↔ ∃ first parts, text = first :: parts ∧
      (97 ≤ first.toNat ∧ first.toNat ≤ 122 ∨ 65 ≤ first.toNat ∧ first.toNat ≤ 90) ∧
      ∀ byte ∈ parts, Name.isPart byte := by
  cases text with
  | nil => simp [isName]
  | cons first parts => simp [isName, isLetter, UInt8.le_iff_toNat_le]

namespace Spelling

open Lexis

/-- Before a gap, or at the end, the rule of a spelling takes it whole. -/
theorem takes (spelling : Spelling) {rest : List Character} (starts : StartsGap rest) :
    Takes spelling.rule spelling.text.characters rest := by
  cases spelling with
  | word text shaped =>
    obtain ⟨first, parts, rfl, letter, all⟩ := Name.isName_iff.mp shaped
    have ascii : ∀ byte ∈ first :: parts, byte.toNat < 0x80 := by
      refine List.forall_mem_cons.mpr ⟨by omega, fun byte member => ?_⟩
      have := Name.isPart_iff.mp (all byte member)
      omega
    rw [rule, Spelling.text, Text.characters_of_ascii ascii, List.map_cons]
    refine .name ?_ ?_ (starts.stops fun character part => ?_)
    · rw [Character.isLetter_iff, Character.ofByte_toNat (by omega)]
      exact letter
    · intro character member
      obtain ⟨byte, listed, rfl⟩ := List.mem_map.mp member
      rw [Character.isNamePart_iff, Character.ofByte_toNat (ascii byte (by simp [listed]))]
      exact Name.isPart_iff.mp (all byte listed)
    · have := Character.isNamePart_iff.mp part
      omega
  | operator symbol =>
    have spelled := scalar_characters symbol
    refine .operator spelled (fun other begins => ?_) fun _ => starts.stops_isDigit
    rw [← spelled, List.length_map]
    exact starts.operator_le begins
  | integer negative digits shaped least most =>
    have ascii : ∀ byte ∈ Numeral.sign negative ++ digits, byte.toNat < 0x80 :=
      List.forall_mem_append.mpr ⟨Numeral.ascii_sign negative, Numeral.ascii_of_isNumeral shaped⟩
    rw [rule, text, Text.characters_of_ascii ascii, List.map_append]
    exact .integer (isSign_sign negative) (isDigits_of_isNumeral shaped) starts.stops_isDigit
      starts.fraction?_eq_none
  | real negative whole places shaped placed finite =>
    have ascii : ∀ byte ∈ Numeral.sign negative ++ (whole ++ Numeral.point :: places),
        byte.toNat < 0x80 :=
      List.forall_mem_append.mpr ⟨Numeral.ascii_sign negative,
        fun byte member => (Numeral.le_of_mem_numeral shaped placed byte member).trans_lt
          (by norm_num)⟩
    rw [rule, text, Text.characters_of_ascii ascii, List.map_append, List.map_append,
      List.map_cons]
    exact .real (isSign_sign negative) (isDigits_of_isNumeral shaped) rfl
      (isDigits_of_isNumeral placed) starts.stops_isDigit
  | string body sound =>
    have closing : (body ++ [Converter.quote]).characters =
        body.characters ++ [Character.ofByte Converter.quote] :=
      Text.characters_append (.inr (by simp [Text.isContinuation, Converter.quote]))
    rw [rule, text, Text.characters_cons_ascii (by decide), closing]
    exact .string rfl sound rfl

end Spelling

/-! ## The spellings of tokens -/

namespace Lexis

variable {rule : Rule} {taken rest : List Character}

/-- The bytes of digits are digits. -/
theorem isNumeral_of_isDigits (sound : ∀ character ∈ taken, character.Sound)
    (digits : IsDigits taken) : Numeral.IsNumeral (Text.ofCharacters taken) := by
  have bounds (character : Character) (member : character ∈ taken) :=
    Character.isDigit_iff.mp (digits.2 character member)
  have ascii (character : Character) (member : character ∈ taken) :
      character.scalar.toNat < 0x80 := by
    have := bounds character member
    omega
  rw [Text.ofCharacters_ascii sound ascii]
  refine ⟨by simp [digits.1], fun byte member => ?_⟩
  obtain ⟨character, listed, rfl⟩ := List.mem_map.mp member
  have := bounds character listed
  rw [Numeral.isDigit_iff, UInt8.toNat_ofNat', Nat.mod_eq_of_lt (by omega)]
  exact this

/-- The bytes of a sign are a sign. -/
theorem sign_of_isSign (sound : ∀ character ∈ taken, character.Sound) (signed : IsSign taken) :
    ∃ negative, Text.ofCharacters taken = Numeral.sign negative := by
  obtain rfl | ⟨minus, negative, rfl⟩ := signed
  · exact ⟨false, rfl⟩
  · refine ⟨true, ?_⟩
    rw [Text.ofCharacters_ascii sound (by simp [negative]), List.map_singleton, negative]
    rfl

/-- The bytes of a numeral without a point are a sign and digits. -/
theorem ofCharacters_integer {sign whole : List Character}
    (sound : ∀ character ∈ sign ++ whole, character.Sound) (signed : IsSign sign)
    (digits : IsDigits whole) :
    ∃ negative, Text.ofCharacters (sign ++ whole) =
        Numeral.sign negative ++ Text.ofCharacters whole ∧
      Numeral.IsNumeral (Text.ofCharacters whole) := by
  obtain ⟨signs, wholes⟩ := List.forall_mem_append.mp sound
  obtain ⟨negative, minus⟩ := sign_of_isSign signs signed
  exact ⟨negative, by rw [Text.ofCharacters_append, minus], isNumeral_of_isDigits wholes digits⟩

/-- The bytes of a numeral with a point are a sign and digits on both sides of the point. -/
theorem ofCharacters_real {sign whole fraction : List Character} {point : Character}
    (sound : ∀ character ∈ sign ++ (whole ++ point :: fraction), character.Sound)
    (signed : IsSign sign) (digits : IsDigits whole) (pointed : point.scalar = '.')
    (places : IsDigits fraction) :
    ∃ negative, Text.ofCharacters (sign ++ (whole ++ point :: fraction)) =
        Numeral.sign negative ++
          (Text.ofCharacters whole ++ Numeral.point :: Text.ofCharacters fraction) ∧
      Numeral.IsNumeral (Text.ofCharacters whole) ∧
      Numeral.IsNumeral (Text.ofCharacters fraction) := by
  obtain ⟨signs, others⟩ := List.forall_mem_append.mp sound
  obtain ⟨wholes, later⟩ := List.forall_mem_append.mp others
  obtain ⟨negative, minus⟩ := sign_of_isSign signs signed
  have middle : point.bytes = [Numeral.point] := by
    rw [(sound point (by simp)).ascii (by rw [pointed]; decide), pointed]
    rfl
  refine ⟨negative, ?_, isNumeral_of_isDigits wholes digits,
    isNumeral_of_isDigits (List.forall_mem_cons.mp later).2 places⟩
  simp [minus, middle]

/-- The text of every token of the language has a spelling of its rule. -/
theorem Takes.exists_spelling (takes : Takes rule taken rest)
    (decoded : (Text.ofCharacters taken).characters = taken) {table : KeywordTable} {line : Int}
    {position : Position} {token : Token}
    (made : Piece.read ⟨rule, Text.ofCharacters taken, position⟩ table line = .token token) :
    ∃ spelling : Spelling, spelling.rule = rule ∧ spelling.text = Text.ofCharacters taken := by
  have sound : ∀ character ∈ taken, character.Sound :=
    decoded ▸ Text.sound_of_mem_characters _
  cases takes with
  | @string opening closing body _ opens inner closes =>
    have inside : (Text.ofCharacters body).characters = body :=
      @Text.characters_ofCharacters _ [opening] body [closing] decoded
    exact ⟨.string (Text.ofCharacters body) (by rwa [inside]), rfl,
      (ofCharacters_quoted sound opens closes).symm⟩
  | @real sign whole fraction _ point signed digits pointed places stops =>
    obtain ⟨negative, spelled, shaped, placed⟩ :=
      ofCharacters_real sound signed digits pointed places
    rw [spelled] at made ⊢
    rw [Piece.read_realNumeral, Numeral.real_numeral negative shaped placed] at made
    refine ⟨.real negative _ _ shaped placed ?_, rfl, rfl⟩
    rw [← Binary64.nearest?_isSome_iff negative _ (Nat.pow_pos (by norm_num))]
    cases nearest : Binary64.nearest? negative _ _ with
    | some number => rfl
    | none =>
      rw [nearest] at made
      contradiction
  | @integer sign whole _ signed digits stops pointless =>
    obtain ⟨negative, spelled, shaped⟩ := ofCharacters_integer sound signed digits
    rw [spelled] at made ⊢
    rw [Piece.read_integerNumeral, Numeral.decimal_numeral negative shaped] at made
    by_cases inside : -2 ^ 63 ≤ Numeral.signedValue negative
        (Numeral.value (Text.ofCharacters whole)) ∧
        Numeral.signedValue negative (Numeral.value (Text.ofCharacters whole)) < 2 ^ 63
    · exact ⟨.integer negative _ shaped inside.1 inside.2, rfl, rfl⟩
    · rw [if_neg inside] at made
      contradiction
  | @name first parts _ starts goesOn stops =>
    have letter := Character.isLetter_iff.mp starts
    have bounds (part : Character) (member : part ∈ parts) :=
      Character.isNamePart_iff.mp (goesOn part member)
    refine ⟨.word (Text.ofCharacters (first :: parts)) ?_, rfl, rfl⟩
    rw [Text.ofCharacters_ascii sound, Name.isName_iff]
    · refine ⟨_, _, List.map_cons, ?_, ?_⟩
      · rwa [UInt8.toNat_ofNat', Nat.mod_eq_of_lt (by omega)]
      · intro byte member
        obtain ⟨part, listed, rfl⟩ := List.mem_map.mp member
        have := bounds part listed
        rwa [Name.isPart_iff, UInt8.toNat_ofNat', Nat.mod_eq_of_lt (by omega)]
    · refine List.forall_mem_cons.mpr ⟨by omega, fun part member => ?_⟩
      have := bounds part member
      omega
  | comment marked inner stops =>
    cases (read_of_suppress (.comment marked inner stops) rfl sound table line position).symm.trans
      made
  | newlines present all stops =>
    cases (read_of_suppress (.newlines present all stops) rfl sound table line position).symm.trans
      made
  | blanks present all stops =>
    cases (read_of_suppress (.blanks present all stops) rfl sound table line position).symm.trans
      made
  | @operator operator _ _ spelled longest unsigned =>
    refine ⟨.operator operator, rfl, ?_⟩
    have ascii : ∀ character ∈ taken, character.scalar.toNat < 0x80 := fun character member =>
      (scalars_ascii operator character.scalar (spelled ▸ List.mem_map_of_mem member)).1
    have same : operator.scalars.map (fun scalar => UInt8.ofNat scalar.toNat) =
        Text.ofString operator.spelling := by
      cases operator <;> rfl
    rw [Text.ofCharacters_ascii sound ascii, Spelling.text, ← same, ← spelled, List.map_map]
    rfl

end Lexis

namespace Scanner

variable {table : KeywordTable} {characters : List Character} {position : Position}
  {line final : Int} {tokens : List Token} {error : Option ScanError}

/-- Every token of a scan of the language is the token of a spelling. -/
theorem Scans.exists_spelling
    (scans : (language table).Scans characters position line tokens final error)
    (decoded : (Text.ofCharacters characters).characters = characters) :
    ∀ token ∈ tokens, ∃ spelling : Spelling,
      token = spelling.token table token.line token.position := by
  induction scans with
  | finished | illegal | failed => simp
  | skipped split read later ih =>
    obtain ⟨rfl, _⟩ := Lexis.split?_language_iff.mp split
    exact ih (Text.characters_ofCharacters_right decoded)
  | @token characters taken rest rule position line final made tokens error split read later ih =>
    obtain ⟨rfl, takes⟩ := Lexis.split?_language_iff.mp split
    refine List.forall_mem_cons.mpr ⟨?_, ih (Text.characters_ofCharacters_right decoded)⟩
    obtain ⟨spelling, rfl, same⟩ :=
      takes.exists_spelling (Text.characters_ofCharacters_left decoded) read
    rw [← same] at read
    have token := Reading.token.inj (read.symm.trans (spelling.read table line position))
    exact ⟨spelling, by rw [token]; rfl⟩

end Scanner

end Aml
