import Mathlib
import Aml.Text.Character

/-!
# Laws of decoding

Reading a text as characters loses no byte: the bytes of the characters concatenate to the text
(`ofCharacters_characters`). The characters of two texts in a row are those of the first followed
by those of the second whenever no sequence can reach across the seam, that is, when the first
text ends in ASCII or the second does not start with a continuation byte (`characters_append`).
A segment of the characters of a text decodes to itself (`characters_ofCharacters`), so cutting a
text between characters never changes what its parts are read as; `Meets` says that two texts meet
in this way. Everything rests on one
grammar of well-formed sequences, `Spells`.
-/
namespace Aml.Text

/-- The well-formed sequences of one to four bytes, each with the scalar value it spells. -/
inductive Spells : Text → Nat → Prop where
  | one {lead : UInt8} (ascii : lead.toNat < 0x80) : Spells [lead] lead.toNat
  | two {lead second : UInt8} (least : 0xC2 ≤ lead.toNat) (most : lead.toNat < 0xE0)
      (follows : isContinuation second = true) :
      Spells [lead, second] ((lead.toNat - 0xC0) * 64 + payload second)
  | three {lead second third : UInt8} {scalar : Nat} (least : 0xE0 ≤ lead.toNat)
      (most : lead.toNat < 0xF0) (follows : isContinuation second = true)
      (ends : isContinuation third = true)
      (value : scalar = (lead.toNat - 0xE0) * 4096 + payload second * 64 + payload third)
      (large : 0x800 ≤ scalar) (allowed : ¬(0xD800 ≤ scalar ∧ scalar < 0xE000)) :
      Spells [lead, second, third] scalar
  | four {lead second third fourth : UInt8} {scalar : Nat} (least : 0xF0 ≤ lead.toNat)
      (most : lead.toNat < 0xF5) (follows : isContinuation second = true)
      (goesOn : isContinuation third = true) (ends : isContinuation fourth = true)
      (value : scalar = (lead.toNat - 0xF0) * 262144 + payload second * 4096
        + payload third * 64 + payload fourth)
      (large : 0x10000 ≤ scalar) (allowed : scalar < 0x110000) :
      Spells [lead, second, third, fourth] scalar

/-- The character at the front of a text is the one that its first bytes spell. -/
theorem first?_eq_some_iff {text : Text} {scalar : Char} {width : Nat} :
    first? text = some (scalar, width) ↔
      ∃ bytes rest value, text = bytes ++ rest ∧ Spells bytes value ∧ Char.ofNat value = scalar ∧
        bytes.length = width := by
  constructor
  · intro read
    unfold first? at read
    split at read
    · contradiction
    · rename_i lead rest
      dsimp only at read
      -- One branch for each width, chosen by the lead byte.
      split_ifs at read with ascii below two three four
      · simp only [Option.some.injEq, Prod.mk.injEq] at read
        exact ⟨[lead], rest, _, rfl, .one ascii, read.1, read.2⟩
      · split at read
        · rename_i second rest
          split_ifs at read with follows
          simp only [Option.some.injEq, Prod.mk.injEq] at read
          exact ⟨[lead, second], rest, _, rfl, .two (by omega) two follows, read.1, read.2⟩
        · contradiction
      · split at read
        · rename_i second third rest
          split_ifs at read with follows
          simp only [Option.some.injEq, Prod.mk.injEq] at read
          simp only [Bool.and_eq_true, decide_eq_true_eq, Bool.not_eq_true',
            Bool.and_eq_false_iff, decide_eq_false_iff_not] at follows
          exact ⟨[lead, second, third], rest, _, rfl, .three (by omega) three follows.1.1.1
            follows.1.1.2 rfl follows.1.2 (by omega), read.1, read.2⟩
        · contradiction
      · split at read
        · rename_i second third fourth rest
          split_ifs at read with follows
          simp only [Option.some.injEq, Prod.mk.injEq] at read
          simp only [Bool.and_eq_true, decide_eq_true_eq] at follows
          exact ⟨[lead, second, third, fourth], rest, _, rfl, .four (by omega) four
            follows.1.1.1.1 follows.1.1.1.2 follows.1.1.2 rfl follows.1.2 follows.2,
            read.1, read.2⟩
        · contradiction
  · rintro ⟨bytes, rest, value, rfl, spelled, rfl, rfl⟩
    cases spelled with
    | one ascii => simp [first?, ascii]
    | @two lead second least most follows =>
      have notAscii : ¬lead.toNat < 0x80 := by omega
      have notStray : ¬lead.toNat < 0xC2 := by omega
      simp [first?, notAscii, notStray, most, follows]
    | @three lead second third scalar least most follows ends value large allowed =>
      subst value
      have notAscii : ¬lead.toNat < 0x80 := by omega
      have notStray : ¬lead.toNat < 0xC2 := by omega
      have notTwo : ¬lead.toNat < 0xE0 := by omega
      simp only [first?, List.cons_append, List.nil_append, notAscii, notStray, notTwo, most,
        follows, ends, large, if_true, if_false, decide_true, Bool.and_self, Bool.true_and]
      rw [if_pos]
      · rfl
      · simp only [Bool.not_eq_true', Bool.and_eq_false_iff, decide_eq_false_iff_not]
        omega
    | @four lead second third fourth scalar least most follows goesOn ends value large allowed =>
      subst value
      have notAscii : ¬lead.toNat < 0x80 := by omega
      have notStray : ¬lead.toNat < 0xC2 := by omega
      have notTwo : ¬lead.toNat < 0xE0 := by omega
      have notThree : ¬lead.toNat < 0xF0 := by omega
      simp [first?, notAscii, notStray, notTwo, notThree, most, follows, goesOn, ends, large,
        allowed]

/-- A byte that continues a sequence is outside ASCII. -/
theorem isContinuation_le {byte : UInt8} (continues : isContinuation byte = true) :
    0x80 ≤ byte.toNat := by
  simp only [isContinuation, Bool.and_eq_true, decide_eq_true_eq, UInt8.le_iff_toNat_le]
    at continues
  exact continues.1

/-- The payload of a byte has six bits. -/
theorem payload_lt (byte : UInt8) : payload byte < 64 :=
  Nat.mod_lt _ (by decide)

namespace Spells

variable {bytes : Text} {value : Nat}

/-- A sequence has a byte. -/
theorem ne_nil (spelled : Spells bytes value) : bytes ≠ [] := by
  cases spelled <;> simp

/-- Every byte after the first one continues the sequence. -/
theorem tail_continues (spelled : Spells bytes value) :
    ∀ byte ∈ bytes.tail, isContinuation byte = true := by
  cases spelled <;> simp_all

/-- A sequence spells a scalar value. -/
theorem isValidChar (spelled : Spells bytes value) : value.isValidChar := by
  cases spelled with
  | one ascii => exact .inl (by omega)
  | @two lead second least most follows =>
    have := payload_lt second
    exact .inl (by omega)
  | @three lead second third _ least most follows ends equal large allowed =>
    have := payload_lt second
    have := payload_lt third
    by_cases low : value < 0xD800
    · exact .inl low
    · exact .inr (by omega)
  | four least most follows goesOn ends equal large allowed => exact .inr (by omega)

/-- The character of a sequence has the value that the sequence spells. -/
theorem toNat_ofNat (spelled : Spells bytes value) : (Char.ofNat value).toNat = value := by
  rw [Char.ofNat, dif_pos spelled.isValidChar]
  exact Char.toNat_ofNatAux spelled.isValidChar

/-- An ASCII value is spelled by its own byte, and any other value by bytes outside ASCII. -/
theorem ascii_or (spelled : Spells bytes value) :
    value < 0x80 ∧ bytes = [UInt8.ofNat value] ∨
      0x80 ≤ value ∧ ∀ byte ∈ bytes, 0x80 ≤ byte.toNat := by
  cases spelled with
  | @one lead ascii => exact .inl ⟨ascii, by simp⟩
  | @two lead second least most follows =>
    refine .inr ⟨by omega, ?_⟩
    simp only [List.mem_cons, List.not_mem_nil, or_false, forall_eq_or_imp, forall_eq]
    exact ⟨by omega, isContinuation_le follows⟩
  | @three lead second third scalar least most follows ends equal large allowed =>
    refine .inr ⟨by omega, ?_⟩
    simp only [List.mem_cons, List.not_mem_nil, or_false, forall_eq_or_imp, forall_eq]
    exact ⟨by omega, isContinuation_le follows, isContinuation_le ends⟩
  | @four lead second third fourth scalar least most follows goesOn ends equal large allowed =>
    refine .inr ⟨by omega, ?_⟩
    simp only [List.mem_cons, List.not_mem_nil, or_false, forall_eq_or_imp, forall_eq]
    exact ⟨by omega, isContinuation_le follows, isContinuation_le goesOn, isContinuation_le ends⟩

end Spells

/-- Bytes added after a well-formed character do not change how it is read. -/
theorem first?_append {text : Text} {scalar : Char} {width : Nat}
    (read : first? text = some (scalar, width)) (more : Text) :
    first? (text ++ more) = some (scalar, width) := by
  obtain ⟨bytes, rest, value, rfl, spelled, same, sized⟩ := first?_eq_some_iff.mp read
  exact first?_eq_some_iff.mpr
    ⟨bytes, rest ++ more, value, by rw [List.append_assoc], spelled, same, sized⟩

end Aml.Text

namespace Aml

/-- What decoding guarantees of a character: an ASCII character is its own byte, and every byte
of any other character is outside ASCII. -/
structure Character.Sound (character : Character) : Prop where
  /-- A character has a byte. -/
  ne_nil : character.bytes ≠ []
  /-- ASCII is spelled by itself. -/
  ascii : character.scalar.toNat < 0x80 → character.bytes = [UInt8.ofNat character.scalar.toNat]
  /-- Nothing else is spelled with ASCII. -/
  foreign : 0x80 ≤ character.scalar.toNat → ∀ byte ∈ character.bytes, 0x80 ≤ byte.toNat

namespace Text

/-- A character is read in front of the bytes after it: either its bytes spell it, or it is a
single byte that starts no sequence there. -/
inductive Leads : Character → Text → Prop where
  | spelled {bytes : Text} {value : Nat} (spelled : Spells bytes value) (rest : Text) :
      Leads ⟨Char.ofNat value, bytes⟩ rest
  | stray {byte : UInt8} {rest : Text} (stray : first? (byte :: rest) = none) :
      Leads ⟨Character.replacement, [byte]⟩ rest

/-- A byte that starts no character is outside ASCII. -/
theorem le_of_first?_eq_none {byte : UInt8} {rest : Text} (stray : first? (byte :: rest) = none) :
    0x80 ≤ byte.toNat := by
  by_contra ascii
  have read := first?_eq_some_iff.mpr ⟨[byte], rest, _, rfl, .one (by omega), rfl, rfl⟩
  rw [List.singleton_append, stray] at read
  contradiction

/-- A character that is read is sound. -/
theorem Leads.sound {first : Character} {rest : Text} (leads : Leads first rest) :
    first.Sound := by
  cases leads with
  | @spelled bytes value spelled =>
    have same := spelled.toNat_ofNat
    refine ⟨spelled.ne_nil, fun small => ?_, fun large => ?_⟩
    · obtain ⟨_, alone⟩ | ⟨foreign, _⟩ := spelled.ascii_or
      · simpa only [same] using alone
      · simp only [same] at small
        omega
    · obtain ⟨small, _⟩ | ⟨_, foreign⟩ := spelled.ascii_or
      · simp only [same] at large
        omega
      · exact foreign
  | stray stray =>
    refine ⟨by simp, fun small => ?_, fun _ => ?_⟩
    · exact absurd small (by decide : ¬Character.replacement.toNat < 0x80)
    · simpa using le_of_first?_eq_none stray

/-- The first character of a text is read in front of the bytes after it. -/
theorem leads_firstCharacter (byte : UInt8) (tail : Text) :
    ∃ rest, byte :: tail = (firstCharacter byte tail).bytes ++ rest ∧
      Leads (firstCharacter byte tail) rest := by
  cases read : first? (byte :: tail) with
  | none =>
    refine ⟨tail, ?_, ?_⟩
    · simp [firstCharacter, read]
    · simpa [firstCharacter, read] using Leads.stray read
  | some found =>
    obtain ⟨scalar, width⟩ := found
    obtain ⟨bytes, rest, value, equal, spelled, rfl, rfl⟩ := first?_eq_some_iff.mp read
    have taken : (byte :: tail).take bytes.length = bytes := by rw [equal, List.take_left]
    refine ⟨rest, ?_, ?_⟩
    · simpa only [firstCharacter, read, taken] using equal
    · simpa only [firstCharacter, read, taken] using Leads.spelled spelled rest

/-- A character that is read in front of a text is the first one there. -/
theorem Leads.eq_firstCharacter {first : Character} {rest tail : Text} {byte : UInt8}
    (leads : Leads first rest) (equal : first.bytes ++ rest = byte :: tail) :
    firstCharacter byte tail = first := by
  cases leads with
  | @spelled bytes value spelled =>
    have read := first?_eq_some_iff.mpr ⟨bytes, rest, value, equal.symm, spelled, rfl, rfl⟩
    have taken : (byte :: tail).take bytes.length = bytes := by rw [← equal, List.take_left]
    simp only [firstCharacter, read, taken]
  | stray stray =>
    obtain ⟨rfl, rfl⟩ := List.cons.inj equal
    simp [firstCharacter, stray]

/-- Collecting characters appends them to those collected before. -/
theorem charactersLoop_append (skip : Nat) (text : Text) (done : List Character) :
    charactersLoop skip text done = done.reverse ++ charactersLoop skip text [] := by
  induction text generalizing skip done with
  | nil => simp [charactersLoop]
  | cons byte rest ih =>
    cases skip with
    | zero =>
      simp only [charactersLoop]
      rw [ih, ih _ [firstCharacter byte rest]]
      simp
    | succ skip => exact ih skip done

/-- Skipped bytes are dropped. -/
theorem charactersLoop_skip (skip : Nat) (text : Text) (done : List Character) :
    charactersLoop skip text done = charactersLoop 0 (text.drop skip) done := by
  induction text generalizing skip with
  | nil => cases skip <;> simp [charactersLoop]
  | cons byte rest ih =>
    cases skip with
    | zero => simp
    | succ skip => rw [charactersLoop, ih, List.drop_succ_cons]

/-- The empty text has no characters. -/
@[simp]
theorem characters_nil : characters [] = [] := rfl

/-- The characters of a text are the one read in front and those of the bytes after it. -/
theorem Leads.characters {first : Character} {rest : Text} (leads : Leads first rest) :
    Text.characters (first.bytes ++ rest) = first :: rest.characters := by
  obtain ⟨byte, bytes, spelled⟩ := List.exists_cons_of_ne_nil leads.sound.ne_nil
  have same : firstCharacter byte (bytes ++ rest) = first :=
    leads.eq_firstCharacter (by rw [spelled, List.cons_append])
  have width : first.bytes.length - 1 = bytes.length := by rw [spelled]; rfl
  rw [spelled, List.cons_append, Text.characters, charactersLoop, same, charactersLoop_append,
    charactersLoop_skip, width, List.drop_left]
  rfl

/-- A property of texts holds when it holds of the empty text and passes from the bytes after the
first character to the whole text. -/
theorem induction_on_characters {motive : Text → Prop} (nil : motive [])
    (cons : ∀ first rest, Leads first rest → motive rest → motive (first.bytes ++ rest)) :
    ∀ text, motive text
  | [] => nil
  | byte :: tail => by
    obtain ⟨rest, split, leads⟩ := leads_firstCharacter byte tail
    have shorter : rest.length ≤ tail.length := by
      have present := List.length_pos_of_ne_nil leads.sound.ne_nil
      have sized := congrArg List.length split
      rw [List.length_cons, List.length_append] at sized
      omega
    rw [split]
    exact cons _ rest leads (induction_on_characters nil cons rest)
termination_by text => text.length

/-- The bytes of characters in a row. -/
@[simp]
theorem ofCharacters_append (left right : List Character) :
    ofCharacters (left ++ right) = ofCharacters left ++ ofCharacters right :=
  List.flatMap_append

/-- No characters have no bytes. -/
@[simp]
theorem ofCharacters_nil : ofCharacters [] = [] := rfl

/-- The bytes of a character and of those after it. -/
@[simp]
theorem ofCharacters_cons (character : Character) (rest : List Character) :
    ofCharacters (character :: rest) = character.bytes ++ ofCharacters rest := rfl

/-- The bytes of the characters of a text are the text. -/
@[simp]
theorem ofCharacters_characters (text : Text) : ofCharacters text.characters = text := by
  induction text using induction_on_characters with
  | nil => rfl
  | cons first rest leads ih => rw [leads.characters, ofCharacters_cons, ih]

/-- Every character of a text is sound. -/
theorem sound_of_mem_characters (text : Text) :
    ∀ character ∈ text.characters, character.Sound := by
  induction text using induction_on_characters with
  | nil => simp
  | cons first rest leads ih =>
    rw [leads.characters]
    exact List.forall_mem_cons.mpr ⟨leads.sound, ih⟩

/-! ## Cutting a text between characters -/

/-- A character is still read when the bytes far enough after it are taken away. -/
theorem Leads.truncate {first : Character} {kept dropped : Text}
    (leads : Leads first (kept ++ dropped)) : Leads first kept := by
  cases leads with
  | spelled spelled => exact .spelled spelled kept
  | @stray byte _ stray =>
    refine .stray ?_
    cases read : first? (byte :: kept) with
    | none => rfl
    | some found =>
      have still := first?_append read dropped
      rw [List.cons_append, stray] at still
      contradiction

/-- No sequence reaches from one text into the next. -/
def Separate (left right : Text) : Prop :=
  (∀ byte ∈ left.getLast?, byte.toNat < 0x80) ∨ ∀ byte ∈ right.head?, isContinuation byte = false

/-- The end of a text is separate from what the text is separate from. -/
theorem Separate.of_append {front left right : Text} (separate : Separate (front ++ left) right) :
    Separate left right := by
  obtain ascii | fresh := separate
  · refine .inl fun byte last => ascii byte ?_
    rw [List.getLast?_append, last]
    rfl
  · exact .inr fresh

/-- A text is separate from what its end is separate from. -/
theorem Separate.append {left right : Text} (separate : Separate left right) (front : Text)
    (present : left ≠ []) : Separate (front ++ left) right := by
  obtain ascii | fresh := separate
  · refine .inl fun byte last => ascii byte ?_
    rwa [List.getLast?_append_of_ne_nil _ present] at last
  · exact .inr fresh

/-- A byte that starts no sequence within a text starts none across a seam. -/
theorem first?_append_eq_none {byte : UInt8} {tail more : Text}
    (stray : first? (byte :: tail) = none) (separate : Separate (byte :: tail) more) :
    first? (byte :: tail ++ more) = none := by
  cases read : first? (byte :: tail ++ more) with
  | none => rfl
  | some found =>
    obtain ⟨scalar, width⟩ := found
    exfalso
    obtain ⟨bytes, rest, value, equal, spelled, rfl, rfl⟩ := first?_eq_some_iff.mp read
    obtain ⟨inner, same, reaches⟩ | ⟨rest, same, _⟩ := List.append_eq_append_iff.mp equal
    · cases inner with
      | nil =>
        rw [List.append_nil] at same
        have whole : first? (byte :: tail) = some (Char.ofNat value, bytes.length) :=
          first?_eq_some_iff.mpr ⟨bytes, [], value, by simp [same], spelled, rfl, rfl⟩
        rw [stray] at whole
        contradiction
      | cons next inner =>
        have continues := spelled.tail_continues next (by simp [same])
        obtain ascii | fresh := separate
        · obtain ⟨_, alone⟩ | ⟨_, foreign⟩ := spelled.ascii_or
          · simp [same] at alone
          · have last := List.getLast?_eq_some_getLast (List.cons_ne_nil byte tail)
            have small := ascii _ last
            rw [same] at foreign
            have large := foreign _ (List.mem_append_left _ (List.mem_of_getLast? last))
            omega
        · rw [reaches] at fresh
          simp [continues] at fresh
    · have whole := first?_eq_some_iff.mpr ⟨bytes, rest, value, same, spelled, rfl, rfl⟩
      rw [stray] at whole
      contradiction

/-- A character is still read when bytes are added across a seam. -/
theorem Leads.extend {first : Character} {rest more : Text} (leads : Leads first rest)
    (separate : Separate (first.bytes ++ rest) more) : Leads first (rest ++ more) := by
  cases leads with
  | spelled spelled => exact .spelled spelled _
  | stray stray => exact .stray (first?_append_eq_none stray separate)

/-- The characters of two texts with a seam between them are those of the one and of the
other. -/
theorem characters_append {left right : Text} (separate : Separate left right) :
    (left ++ right).characters = left.characters ++ right.characters := by
  induction left using induction_on_characters with
  | nil => rfl
  | cons first rest leads ih =>
    rw [List.append_assoc, (leads.extend separate).characters, ih separate.of_append,
      leads.characters, List.cons_append]

/-- The first characters of a text decode to themselves. -/
theorem characters_ofCharacters_left {text : Text} {segment after : List Character}
    (read : text.characters = segment ++ after) :
    (ofCharacters segment).characters = segment := by
  induction text using induction_on_characters generalizing segment with
  | nil =>
    obtain ⟨rfl, _⟩ := List.append_eq_nil_iff.mp read.symm
    rfl
  | cons first rest leads ih =>
    cases segment with
    | nil => rfl
    | cons found segment =>
      rw [leads.characters, List.cons_append, List.cons.injEq] at read
      obtain ⟨rfl, later⟩ := read
      have split : rest = ofCharacters segment ++ ofCharacters after := by
        rw [← ofCharacters_append, ← later, ofCharacters_characters]
      rw [ofCharacters_cons, (split ▸ leads : Leads first _).truncate.characters, ih later]

/-- The last characters of a text decode to themselves. -/
theorem characters_ofCharacters_right {text : Text} {before segment : List Character}
    (read : text.characters = before ++ segment) :
    (ofCharacters segment).characters = segment := by
  induction text using induction_on_characters generalizing before with
  | nil =>
    obtain ⟨_, rfl⟩ := List.append_eq_nil_iff.mp read.symm
    rfl
  | cons first rest leads ih =>
    cases before with
    | nil => rw [← List.nil_append segment, ← read, ofCharacters_characters]
    | cons found before =>
      rw [leads.characters, List.cons_append, List.cons.injEq] at read
      exact ih read.2

/-- A segment of the characters of a text decodes to itself. -/
theorem characters_ofCharacters {text : Text} {before segment after : List Character}
    (read : text.characters = before ++ (segment ++ after)) :
    (ofCharacters segment).characters = segment :=
  characters_ofCharacters_left (characters_ofCharacters_right read)

/-- Two texts meet between characters: in a row, each is read as it is read alone. -/
def Meets (left right : Text) : Prop :=
  (left ++ right).characters = left.characters ++ right.characters

/-- Two texts with a seam between them meet between characters. -/
theorem Separate.meets {left right : Text} (separate : Separate left right) : Meets left right :=
  characters_append separate

/-- A segment of the characters of a text meets those before it between characters. -/
theorem meets_ofCharacters {text : Text} {before segment after : List Character}
    (read : text.characters = before ++ (segment ++ after)) :
    Meets (ofCharacters before) (ofCharacters segment) := by
  have joined : text.characters = (before ++ segment) ++ after := by
    rw [read, List.append_assoc]
  rw [Meets, ← ofCharacters_append, characters_ofCharacters_left joined,
    characters_ofCharacters_left read, characters_ofCharacters read]

/-- The end of a text meets what the text meets, when no character reaches out of the part before
it. -/
theorem Meets.of_append {front left right : Text} (meets : Meets (front ++ left) right)
    (apart : ∀ text, Separate front text) : Meets left right := by
  unfold Meets at meets
  rw [List.append_assoc, characters_append (apart _), characters_append (apart _),
    List.append_assoc] at meets
  exact List.append_cancel_left meets

end Text

/-! ## ASCII -/

namespace Character

/-- The character that an ASCII byte spells. -/
def ofByte (byte : UInt8) : Character := ⟨Char.ofNat byte.toNat, [byte]⟩

/-- The bytes of an ASCII character. -/
@[simp]
theorem ofByte_bytes (byte : UInt8) : (ofByte byte).bytes = [byte] := rfl

/-- An ASCII character has the value of its byte. -/
theorem ofByte_toNat {byte : UInt8} (ascii : byte.toNat < 0x80) :
    (ofByte byte).scalar.toNat = byte.toNat :=
  (Text.Spells.one ascii).toNat_ofNat

/-- An ASCII character is separate from whatever follows it. -/
theorem Sound.separate {character : Character} (sound : character.Sound)
    (ascii : character.scalar.toNat < 0x80) (right : Text) :
    Text.Separate character.bytes right := by
  refine .inl fun byte last => ?_
  rw [sound.ascii ascii, List.getLast?_singleton, Option.mem_some_iff] at last
  rwa [← last, UInt8.toNat_ofNat', Nat.mod_eq_of_lt (by omega)]

/-- A sound character with the value of an ASCII byte is the one of this byte. -/
theorem Sound.eq_ofByte {character : Character} (sound : character.Sound) {byte : UInt8}
    (ascii : byte.toNat < 0x80) (valued : character.scalar.toNat = byte.toNat) :
    character = ofByte byte := by
  have spelled := sound.ascii (by omega)
  obtain ⟨scalar, bytes⟩ := character
  dsimp only at valued spelled
  rw [ofByte, spelled, ← valued, Char.ofNat_toNat, valued, UInt8.ofNat_toNat]

/-- A sound character has an ASCII byte only when it is the character of that byte. -/
theorem Sound.ascii_mem_iff {character : Character} (sound : character.Sound) {byte : UInt8}
    (small : byte.toNat < 0x80) :
    byte ∈ character.bytes ↔ character.scalar.toNat = byte.toNat := by
  by_cases ascii : character.scalar.toNat < 0x80
  · rw [sound.ascii ascii, List.mem_singleton, ← UInt8.toNat_inj, UInt8.toNat_ofNat',
      Nat.mod_eq_of_lt (by omega)]
    exact eq_comm
  · constructor
    · intro member
      have large := sound.foreign (by omega) byte member
      omega
    · intro same
      omega

/-- A sound character has a newline byte only when it is the newline. -/
theorem Sound.newline_mem_iff {character : Character} (sound : character.Sound) :
    Text.newline ∈ character.bytes ↔ character.scalar = '\n' := by
  rw [sound.ascii_mem_iff (by decide), ← Char.toNat_inj]
  rfl

end Character

namespace Text

/-- An ASCII byte in front is a character of its own. -/
theorem characters_cons_ascii {byte : UInt8} (ascii : byte.toNat < 0x80) (rest : Text) :
    Text.characters (byte :: rest) = Character.ofByte byte :: rest.characters :=
  (Leads.spelled (.one ascii) rest).characters

/-- The characters of an ASCII text are those of its bytes. -/
theorem characters_of_ascii {text : Text} (ascii : ∀ byte ∈ text, byte.toNat < 0x80) :
    text.characters = text.map Character.ofByte := by
  induction text with
  | nil => rfl
  | cons byte rest ih =>
    obtain ⟨first, later⟩ := List.forall_mem_cons.mp ascii
    rw [characters_cons_ascii first, ih later, List.map_cons]

/-- Sound ASCII characters are spelled by their values. -/
theorem ofCharacters_ascii {run : List Character}
    (sound : ∀ character ∈ run, character.Sound)
    (ascii : ∀ character ∈ run, character.scalar.toNat < 0x80) :
    ofCharacters run = run.map fun character => UInt8.ofNat character.scalar.toNat := by
  induction run with
  | nil => rfl
  | cons first others ih =>
    obtain ⟨known, later⟩ := List.forall_mem_cons.mp sound
    obtain ⟨small, low⟩ := List.forall_mem_cons.mp ascii
    rw [ofCharacters_cons, known.ascii small, ih later low, List.map_cons, List.singleton_append]

/-- Nothing has no newlines. -/
@[simp]
theorem newlines_nil : newlines [] = 0 := rfl

/-- The newlines of two texts in a row add up. -/
theorem newlines_append (left right : Text) :
    newlines (left ++ right) = left.newlines + right.newlines :=
  List.count_append

end Text

end Aml
