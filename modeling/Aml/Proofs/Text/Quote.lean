import Mathlib
import Aml.Proofs.Text.Encoding
import Aml.Text.Quote

/-!
# Quotations read back

A quotation is read byte by byte: a byte other than the quote and the backslash stands for itself, a
backslash opens an escape, and a quote ends the quotation. Every character of a text is quoted so
that this gives its bytes again (`readBody?_escaped`): the escapes `\u` and `\U` give the bytes of a
code point, but `\x` gives a single byte, so a byte outside every character is kept apart from the
character U+FFFD. Therefore a quotation is read as the text it quotes, up to its closing quote and
whatever comes after it (`read?_quoted`), and no quotation is the beginning of another one
(`quoted_append_inj`).
-/
namespace Aml.Quotation

/-- The byte that opens and closes a quotation. -/
def mark : UInt8 := 34

/-- The byte that opens an escape. -/
def backslash : UInt8 := 92

/-! ## Reading -/

/-- The value of a hexadecimal digit in lower case. -/
def hexValue? (digit : UInt8) : Option Nat :=
  if 48 ≤ digit ∧ digit < 58 then some (digit.toNat - 48)
  else if 97 ≤ digit ∧ digit < 103 then some (digit.toNat - 87)
  else none

/-- Reads hexadecimal digits after those of a value, with the bytes behind them. -/
def readHex? : (width : Nat) → (value : Nat) → Text → Option (Nat × Text)
  | 0, value, text => some (value, text)
  | _ + 1, _, [] => none
  | width + 1, value, digit :: rest =>
    (hexValue? digit).bind fun low => readHex? width (value * 16 + low) rest

/-- The byte that a letter or a sign after a backslash stands for. -/
def namedByte? (name : UInt8) : Option UInt8 :=
  match name.toNat with
  | 34 => some 34
  | 92 => some 92
  | 97 => some 7
  | 98 => some 8
  | 116 => some 9
  | 110 => some 10
  | 118 => some 11
  | 102 => some 12
  | 114 => some 13
  | _ => none

/-- The number of hexadecimal digits after a letter that shows a code. -/
def digitCount? (letter : UInt8) : Option Nat :=
  if letter = 120 then some 2
  else if letter = 117 then some 4
  else if letter = 85 then some 8
  else none

/-- The bytes of a code: a byte of this value after the letter x, else those of a code point. -/
def codeBytes (letter : UInt8) (value : Nat) : Text :=
  if letter = 120 then [UInt8.ofNat value] else Text.ofChar (Char.ofNat value)

/-- Reads what comes after a backslash: the bytes that it stands for, and the text behind it. -/
def readEscape? : Text → Option (Text × Text)
  | [] => none
  | name :: rest =>
    match digitCount? name with
    | some width => (readHex? width 0 rest).map fun read => (codeBytes name read.1, read.2)
    | none => (namedByte? name).map fun byte => ([byte], rest)

/-- Reading digits leaves no more bytes than there were. -/
theorem length_of_readHex? {width value : Nat} {text : Text} {read : Nat × Text}
    (found : readHex? width value text = some read) : read.2.length ≤ text.length := by
  induction width generalizing value text with
  | zero =>
    cases found
    exact Nat.le_refl _
  | succ width ih =>
    cases text with
    | nil => contradiction
    | cons digit rest =>
      obtain ⟨low, _, later⟩ := Option.bind_eq_some_iff.mp found
      exact Nat.le_succ_of_le (ih later)

/-- Reading an escape takes a byte. -/
theorem length_of_readEscape? {text : Text} {read : Text × Text}
    (found : readEscape? text = some read) : read.2.length < text.length := by
  cases text with
  | nil => contradiction
  | cons name rest =>
    rw [readEscape?] at found
    split at found
    · obtain ⟨number, digits, rfl⟩ := Option.map_eq_some_iff.mp found
      exact Nat.lt_succ_of_le (length_of_readHex? digits)
    · obtain ⟨byte, _, rfl⟩ := Option.map_eq_some_iff.mp found
      exact Nat.lt_succ_self _

/-- Bytes in front of the text that is read. -/
def after (bytes : Text) (read : Text × Text) : Text × Text :=
  (bytes ++ read.1, read.2)

/-- Reads the rest of a quotation: the text it quotes, and what comes after the closing quote. -/
def readBody? : Text → Option (Text × Text)
  | [] => none
  | byte :: rest =>
    if byte = mark then some ([], rest)
    else if byte = backslash then
      match _found : readEscape? rest with
      | none => none
      | some (bytes, behind) => (readBody? behind).map (after bytes)
    else (readBody? rest).map (after [byte])
termination_by text => text.length
decreasing_by
  · exact Nat.lt_succ_of_lt (length_of_readEscape? _found)
  · exact Nat.lt_succ_self _

/-- Reads a quotation at the front of a text: the text it quotes, and what comes after it. -/
def read? : Text → Option (Text × Text)
  | [] => none
  | byte :: rest => if byte = mark then readBody? rest else none

/-! ## Hexadecimal digits -/

/-- A digit has its value. -/
theorem hexValue?_hexDigit : ∀ value < 16, hexValue? (Text.hexDigit value) = some value := by
  decide

/-- The written digits of a number are read as the number they show. -/
theorem readHex?_ofHex (width high value : Nat) (rest : Text) :
    readHex? width high (Text.ofHex width value ++ rest) =
      some (high * 16 ^ width + value % 16 ^ width, rest) := by
  induction width generalizing high with
  | zero => simp [readHex?, Text.ofHex, Nat.mod_one]
  | succ width ih =>
    have digit : value / Nat.pow 16 width % 16 < 16 := Nat.mod_lt _ (by decide)
    rw [Text.ofHex, List.cons_append, readHex?, hexValue?_hexDigit _ digit, Option.bind_some, ih,
      Nat.pow_eq, Nat.mod_pow_succ]
    congr 2
    ring

/-- A number that is shown whole is read. -/
theorem readHex?_ofHex_of_lt {width value : Nat} (fits : value < 16 ^ width) (rest : Text) :
    readHex? width 0 (Text.ofHex width value ++ rest) = some (value, rest) := by
  rw [readHex?_ofHex, Nat.mod_eq_of_lt fits, Nat.zero_mul, Nat.zero_add]

/-! ## Characters -/

/-- Bytes in front of bytes in front of a text. -/
theorem map_after_after (first second : Text) (read : Option (Text × Text)) :
    (read.map (after second)).map (after first) = read.map (after (first ++ second)) := by
  rw [Option.map_map]
  congr 1
  funext found
  exact Prod.ext (List.append_assoc ..).symm rfl

/-- Bytes other than the quote and the backslash stand for themselves. -/
theorem readBody?_plain {bytes : Text} (unmarked : mark ∉ bytes) (plain : backslash ∉ bytes)
    (rest : Text) : readBody? (bytes ++ rest) = (readBody? rest).map (after bytes) := by
  induction bytes with
  | nil => exact Option.map_id'.symm
  | cons byte bytes ih =>
    obtain ⟨noMark, unmarked⟩ := List.ne_and_not_mem_of_not_mem_cons unmarked
    obtain ⟨noBackslash, plain⟩ := List.ne_and_not_mem_of_not_mem_cons plain
    rw [List.cons_append, readBody?, if_neg noMark.symm, if_neg noBackslash.symm,
      ih unmarked plain, map_after_after, List.singleton_append]

/-- An escape stands for the bytes that are read after its backslash. -/
theorem readBody?_backslash {escape bytes rest : Text}
    (found : readEscape? (escape ++ rest) = some (bytes, rest)) :
    readBody? (backslash :: escape ++ rest) = (readBody? rest).map (after bytes) := by
  rw [List.cons_append, readBody?, if_neg (by decide), if_pos rfl]
  split
  · next missing => cases missing.symm.trans found
  · next same => cases same.symm.trans found; rfl

/-- A code in hexadecimal digits is read when all its digits are shown. -/
theorem readEscape?_code {letter : UInt8} {width value : Nat}
    (counted : digitCount? letter = some width) (fits : value < 16 ^ width) (rest : Text) :
    readEscape? (letter :: Text.ofHex width value ++ rest) =
      some (codeBytes letter value, rest) := by
  rw [List.cons_append, readEscape?, counted]
  dsimp only
  rw [readHex?_ofHex_of_lt fits]
  rfl

/-- A letter that names a control character is read as this character. -/
theorem readEscape?_controlLetter {character letter : Char}
    (named : controlLetter? character = some letter) (rest : Text) :
    readEscape? (Text.ofChar letter ++ rest) = some (Text.ofChar character, rest) := by
  have bytes (value : Nat) (small : value < 128) (valued : character.toNat = value) :
      Text.ofChar character = [UInt8.ofNat value] := by
    rw [← valued] at small ⊢
    exact Text.ofChar_ascii small
  unfold controlLetter? at named
  split at named
  case h_8 => contradiction
  all_goals
    next value =>
    cases named
    rw [bytes _ (by decide) value]
    rfl

/-- A character between double quotes is read as its bytes. -/
theorem readBody?_escaped (character : Char) (rest : Text) :
    readBody? (escaped '"' character ++ rest) =
      (readBody? rest).map (after (Text.ofChar character)) := by
  have sound := (Text.leads_ofChar character []).sound
  unfold escaped
  dsimp only
  split
  case isTrue special => obtain rfl | rfl := special <;> exact readBody?_backslash rfl
  case isFalse ordinary =>
    obtain ⟨noMark, noBackslash⟩ := not_or.mp ordinary
    split
    case isTrue =>
      refine readBody?_plain (fun member => noMark ?_) (fun member => noBackslash ?_) rest
      · exact Char.toNat_inj.mp ((sound.ascii_mem_iff (by decide)).mp member)
      · exact Char.toNat_inj.mp ((sound.ascii_mem_iff (by decide)).mp member)
    case isFalse =>
      split
      case h_1 letter named => exact readBody?_backslash (readEscape?_controlLetter named rest)
      case h_2 =>
        split
        case isTrue small =>
          have fits : character.toNat < 16 ^ 2 := Nat.lt_trans small (by decide)
          rw [Text.ofChar_ascii small]
          exact readBody?_backslash (readEscape?_code rfl fits rest)
        case isFalse =>
          have value : Char.ofNat character.toNat = character := Char.ofNat_toNat character
          split
          case isTrue small =>
            have found := readEscape?_code (show digitCount? 117 = some 4 from rfl) small rest
            rw [codeBytes, if_neg (by decide), value] at found
            exact readBody?_backslash found
          case isFalse =>
            have fits : character.toNat < 16 ^ 8 := character.val.toNat_lt
            have found := readEscape?_code (show digitCount? 85 = some 8 from rfl) fits rest
            rw [codeBytes, if_neg (by decide), value] at found
            exact readBody?_backslash found

/-- A character that is read from a text is quoted so that its bytes are read again. -/
theorem readBody?_character {first : Character} {text : Text} (leads : Text.Leads first text)
    (rest : Text) :
    readBody? (first.escaped ++ rest) = (readBody? rest).map (after first.bytes) := by
  unfold Character.escaped
  split
  case isTrue malformed =>
    rw [Character.isMalformed, Bool.and_eq_true, beq_iff_eq, beq_iff_eq] at malformed
    obtain ⟨byte, alone⟩ := List.length_eq_one_iff.mp malformed.2
    have fits : byte.toNat < 16 ^ 2 := byte.toNat_lt
    have found := readEscape?_code (show digitCount? 120 = some 2 from rfl) fits rest
    rw [codeBytes, if_pos rfl, UInt8.ofNat_toNat] at found
    rw [alone, List.flatMap_singleton]
    exact readBody?_backslash found
  case isFalse formed =>
    have spelled := leads.spells (Bool.eq_false_iff.mpr formed)
    rw [readBody?_escaped, spelled.eq_ofChar]

/-! ## Texts -/

/-- The characters of a text between double quotes are read as the text. -/
theorem readBody?_characters (text rest : Text) :
    readBody? (text.characters.flatMap Character.escaped ++ mark :: rest) = some (text, rest) := by
  induction text using Text.induction_on_characters with
  | nil => simp [readBody?]
  | cons first others leads ih =>
    rw [leads.characters, List.flatMap_cons, List.append_assoc, readBody?_character leads, ih]
    rfl

/-- A quotation opens with a quote. -/
theorem quoted_append (text rest : Text) : text.quoted ++ rest =
    mark :: (text.characters.flatMap Character.escaped ++ mark :: rest) := by
  have quote : Text.ofString "\"" = [mark] := rfl
  simp [Text.quoted, quote]

/-- A quotation is read as the text that it quotes, up to its closing quote. -/
theorem read?_quoted (text rest : Text) : read? (text.quoted ++ rest) = some (text, rest) := by
  rw [quoted_append, read?, if_pos rfl, readBody?_characters]

/-- Quoting is a prefix code: texts that start with quotations are the same only when both start
with the quotation of the same text and go on alike. -/
theorem quoted_append_inj {left right behind other : Text} :
    left.quoted ++ behind = right.quoted ++ other ↔ left = right ∧ behind = other := by
  constructor
  · intro same
    have read := congrArg read? same
    simpa [read?_quoted] using read
  · rintro ⟨rfl, rfl⟩
    rfl

end Aml.Quotation
