import Mathlib
import Aml.Proofs.Scan.Lines
import Aml.Proofs.Scan.Numeral
import Aml.Proofs.Scan.WellFormed

/-!
# Signs before digits

A minus sign with a digit after it belongs to a numeral, whatever stands before it: no match but that
of a string or a comment has a minus sign anywhere but in front (`Lexis.Takes.of_minus`). So where a
scan moves over such a sign, it reads a string, a comment or the numeral that starts with it
(`Scanner.Moves.of_minus`), and where it has moved over it, the string, the comment or the numeral is
there (`Scanner.Reaches.of_minus`). In a source that is scanned to its end, subtraction is therefore
never followed by a digit, and no minus sign before a digit goes unread (`Scanner.sign_absorbed`).
-/
namespace Aml

/-! ## Minus signs in matches -/

namespace Lexis

variable {rule : Rule} {inner after taken rest : List Character} {minus : Character}

/-- What occurs after no first element is the first one. -/
theorem front_eq_nil {α : Type} {front back tail : List α} {first found : α}
    (whole : front ++ found :: back = first :: tail) (absent : found ∉ tail) :
    front = [] ∧ back = tail := by
  cases front with
  | nil => exact ⟨rfl, (List.cons.inj whole).2⟩
  | cons _ others =>
    refine absurd ?_ absent
    rw [← (List.cons.inj whole).2]
    exact List.mem_append_right others List.mem_cons_self

/-- Two operators have a minus sign, and both in front: itself and the one that assigns. -/
theorem operator_of_minus (operator : Operator) (listed : '-' ∈ operator.scalars) :
    ∃ tail, operator.scalars = '-' :: tail ∧ '-' ∉ tail ∧
      (operator = .sub ∧ tail = [] ∨ tail = ['=']) := by
  cases operator <;> revert listed <;> simp [Operator.scalars, Operator.spelling]

/-- Digits have no minus sign. -/
theorem IsDigits.ne_minus {digits : List Character} (numeric : IsDigits digits) :
    ∀ character ∈ digits, character.scalar ≠ '-' := by
  intro character member negative
  have digit := numeric.2 character member
  rw [isDigit_of_minus negative] at digit
  contradiction

/-- A minus sign in a signed numeral is its sign. -/
theorem IsSign.of_minus {sign unsigned : List Character} (signed : IsSign sign)
    (plain : ∀ character ∈ unsigned, character.scalar ≠ '-')
    (whole : inner ++ minus :: after = sign ++ unsigned) (negative : minus.scalar = '-') :
    inner = [] ∧ after = unsigned := by
  have absent : minus ∉ unsigned := fun member => plain minus member negative
  obtain rfl | ⟨mark, _, rfl⟩ := signed
  · refine absurd ?_ absent
    rw [← List.nil_append unsigned, ← whole]
    exact List.mem_append_right inner List.mem_cons_self
  · exact front_eq_nil whole absent

/-- A minus sign in a match stands in a string or a comment, or in front of a numeral, or no digit
follows it. -/
theorem Takes.of_minus (takes : Takes rule (inner ++ minus :: after) rest)
    (negative : minus.scalar = '-') :
    rule = Rule.stringLiteral ∨ rule = Rule.comment ∨
      (rule = Rule.integerNumeral ∨ rule = Rule.realNumeral) ∧ inner = [] ∧ after ≠ [] ∨
      Stops Character.isDigit (after ++ rest) := by
  generalize whole : inner ++ minus :: after = taken at takes
  have member : minus ∈ taken := whole ▸ List.mem_append_right inner List.mem_cons_self
  have value : minus.scalar.toNat = 45 := (Character.scalar_eq_iff '-').mp negative
  cases takes with
  | string => exact .inl rfl
  | comment => exact .inr (.inl rfl)
  | @real sign digits fraction _ point signed numeric pointed places =>
    have plain : ∀ character ∈ digits ++ point :: fraction, character.scalar ≠ '-' := by
      refine List.forall_mem_append.mpr ⟨numeric.ne_minus, List.forall_mem_cons.mpr
        ⟨?_, places.ne_minus⟩⟩
      rw [pointed]
      decide
    obtain ⟨rfl, rfl⟩ := signed.of_minus plain whole negative
    exact .inr (.inr (.inl ⟨.inr rfl, rfl, by simp⟩))
  | integer signed numeric =>
    obtain ⟨rfl, rfl⟩ := signed.of_minus numeric.ne_minus whole negative
    exact .inr (.inr (.inl ⟨.inl rfl, rfl, numeric.1⟩))
  | @name first parts _ starts goesOn =>
    obtain rfl | later := List.mem_cons.mp member
    · have := Character.isLetter_iff.mp starts
      omega
    · have := Character.isNamePart_iff.mp (goesOn minus later)
      omega
  | newlines _ all =>
    have := Character.isNewline_iff.mp (all minus member)
    omega
  | blanks _ all =>
    have := Character.isBlank_iff.mp (all minus member)
    omega
  | @operator operator _ _ spelled _ unsigned =>
    refine .inr (.inr (.inr ?_))
    have listed : '-' ∈ operator.scalars := by
      rw [← spelled, ← negative]
      exact List.mem_map_of_mem member
    rw [← whole, List.map_append, List.map_cons, negative] at spelled
    obtain ⟨tail, split, absent, ends⟩ := operator_of_minus operator listed
    rw [split] at spelled
    obtain ⟨front, back⟩ := front_eq_nil spelled absent
    obtain ⟨rfl, rfl⟩ | rfl := ends
    · rw [List.map_eq_nil_iff.mp back]
      exact unsigned rfl
    · obtain ⟨equal, rfl, assigns⟩ := List.map_eq_singleton_iff.mp back
      rw [List.singleton_append, stops_cons, Character.isDigit, assigns]
      rfl

/-- No digit follows a subtraction. -/
theorem Takes.stops_of_sub (takes : Takes rule taken rest) (subtracts : rule.kind = .operator .sub) :
    Stops Character.isDigit rest := by
  cases takes with
  | string | real | integer | name => contradiction
  | comment | newlines | blanks => contradiction
  | @operator operator _ _ _ _ unsigned => exact unsigned (Kind.operator.inj subtracts)

/-- A numeral without a sign starts with a digit. -/
theorem Takes.starts_of_unsigned (takes : Takes rule taken rest) {form : NumeralForm}
    (numeral : rule.kind = form.kind) (unsigned : ∀ character ∈ taken, character.scalar ≠ '-') :
    ¬Stops Character.isDigit (taken ++ rest) := by
  have starts {sign digits others : List Character} (signed : IsSign sign)
      (plain : ∀ character ∈ sign, character.scalar ≠ '-') (numeric : IsDigits digits) :
      ¬Stops Character.isDigit (sign ++ digits ++ others) := by
    obtain rfl | ⟨mark, negative, rfl⟩ := signed
    · obtain ⟨first, later, rfl⟩ := List.exists_cons_of_ne_nil numeric.1
      have digit := numeric.2 first List.mem_cons_self
      rw [List.nil_append, List.cons_append, stops_cons, digit]
      simp
    · exact absurd negative (plain mark List.mem_cons_self)
  cases takes with
  | real signed digits =>
    rw [← List.append_assoc, List.append_assoc]
    exact starts signed (List.forall_mem_append.mp unsigned).1 digits
  | integer signed digits =>
    exact starts signed (List.forall_mem_append.mp unsigned).1 digits
  | string | name | comment | newlines | blanks | operator => cases form <;> contradiction

end Lexis

/-! ## Minus signs in sources -/

namespace Scanner

open Lexis

/-- An offset lies in a comment that a scan gets to. -/
def InComment (scanner : Scanner) (source : Text) (offset : Nat) : Prop :=
  ∃ tokens cursor lexeme, scanner.Encounters source tokens cursor Rule.comment lexeme ∧
    cursor.position.offset ≤ offset ∧ offset < cursor.position.offset + lexeme.length

variable {table : KeywordTable} {source : Text} {tokens : List Token}

/-- What a comment that a scan gets to is made of: a number sign and no newline. -/
theorem Encounters.split_comment {cursor : Cursor} {lexeme : Text}
    (found : (language table).Encounters source tokens cursor Rule.comment lexeme) :
    ∃ body, lexeme = 35 :: body ∧ Text.newline ∉ body := by
  obtain ⟨taken, rest, split, rfl⟩ := found.takes
  obtain ⟨reads, takes⟩ := split?_language_iff.mp split
  have sound := found.walk.sound
  rw [reads] at sound
  obtain ⟨mark, body, rfl, marked, inner⟩ := accepts_comment.mp takes.accepts.2
  obtain ⟨known, within⟩ := List.forall_mem_cons.mp (List.forall_mem_append.mp sound).1
  refine ⟨Text.ofCharacters body, ?_, fun member => ?_⟩
  · have spelled : mark.bytes = [35] := by
      rw [known.ascii (by rw [marked]; decide), marked]
      decide
    rw [Text.ofCharacters_cons, spelled, List.singleton_append]
  · obtain ⟨character, listed, ends⟩ := Text.newline_mem_ofCharacters within member
    have inline := inner character listed
    rw [Character.isNewline, ends] at inline
    exact absurd inline (by decide)

/-- A match of a rule that makes tokens, and reads no names, makes one of the kind of the rule. -/
theorem Moves.exists_token {cursor next : Cursor} {made : List Token} {rule : Rule}
    {taken rest : List Character} (moves : (language table).Moves cursor made next)
    (split : (language table).registry.split? cursor.rest = some (rule, taken, rest))
    (sound : ∀ character ∈ taken, character.Sound) (kept : rule.suppress = false)
    (other : rule.kind ≠ .operand .identifier) :
    ∃ token ∈ made, token.kind = rule.kind ∧ token.lexeme = Text.ofCharacters taken ∧
      token.position = cursor.position := by
  obtain ⟨line, read, _⟩ | ⟨token, read, rfl, _⟩ := (moves_iff_of_split split).mp moves
  · have takes := (split?_language_iff.mp split).2
    rw [(takes.of_read_skipped sound read).1] at kept
    contradiction
  · obtain ⟨lexeme, _, position⟩ := Piece.eq_of_read_token read
    obtain ⟨_, kind | ⟨name, _⟩⟩ := Piece.kind_of_read_token read
    · exact ⟨token, List.mem_singleton_self token, kind, lexeme, position⟩
    · exact absurd name other

/-- A move over a minus sign before a digit reads a string or a comment that goes on at least up to
the sign, or a numeral that starts with it and goes on after it. -/
theorem Moves.of_minus {cursor next : Cursor} {made : List Token}
    (moves : (language table).Moves cursor made next)
    (sound : ∀ character ∈ cursor.rest, character.Sound) {inner back : List Character}
    {minus : Character} (left : cursor.rest = inner ++ minus :: back)
    (past : next.rest.length ≤ back.length) (negative : minus.scalar = '-')
    (followed : ¬Stops Character.isDigit back) :
    (∃ token ∈ made, token.kind = .operand .string ∧ token.position = cursor.position ∧
      (Text.ofCharacters inner).length < token.lexeme.length) ∨
    (∃ taken rest, (language table).registry.split? cursor.rest =
        some (Rule.comment, taken, rest) ∧
      (Text.ofCharacters inner).length < (Text.ofCharacters taken).length) ∨
    inner = [] ∧ next.rest.length < back.length ∧
      ∃ token ∈ made, ∃ form : NumeralForm, token.kind = form.kind ∧
        token.position = cursor.position := by
  obtain ⟨rule, taken, rest, split⟩ := moves.exists_split
  obtain ⟨whole, takes⟩ := split?_language_iff.mp split
  have ends : next.rest = rest := by
    obtain ⟨_, _, _, rfl⟩ | ⟨_, _, _, rfl⟩ := (moves_iff_of_split split).mp moves <;> rfl
  rw [ends] at past ⊢
  have suffix : rest <:+ back := List.suffix_of_suffix_length_le ⟨taken, whole.symm⟩
    ⟨inner ++ [minus], by rw [left, List.append_assoc, List.singleton_append]⟩ past
  obtain ⟨after, rfl⟩ := suffix
  obtain rfl : taken = inner ++ minus :: after := by
    refine List.append_cancel_right (whole.symm.trans ?_)
    rw [left, List.append_assoc, List.cons_append]
  have longer : (Text.ofCharacters inner).length <
      (Text.ofCharacters (inner ++ minus :: after)).length := by
    have present := List.length_pos_iff.mpr (sound minus (by simp [left])).ne_nil
    rw [Text.ofCharacters_append, Text.ofCharacters_cons, List.length_append, List.length_append]
    omega
  rw [whole] at sound
  have makes := moves.exists_token split (List.forall_mem_append.mp sound).1
  obtain rfl | rfl | ⟨numeral, front, goesOn⟩ | stops := takes.of_minus negative
  · obtain ⟨token, member, kind, lexeme, position⟩ := makes rfl (by decide)
    exact .inl ⟨token, member, kind, position, lexeme ▸ longer⟩
  · exact .inr (.inl ⟨_, _, split, longer⟩)
  · have longer : rest.length < (after ++ rest).length := by
      have := List.length_pos_iff.mpr goesOn
      rw [List.length_append]
      omega
    obtain rfl | rfl := numeral
    · obtain ⟨token, member, kind, _, position⟩ := makes rfl (by decide)
      exact .inr (.inr ⟨front, longer, token, member, .integer, kind, position⟩)
    · obtain ⟨token, member, kind, _, position⟩ := makes rfl (by decide)
      exact .inr (.inr ⟨front, longer, token, member, .real, kind, position⟩)
  · exact absurd stops followed

/-- A walk over a minus sign before a digit reads it in a string or a comment, or as the sign of a
numeral, and then it goes on after the sign. -/
theorem Reaches.of_minus {last : Cursor}
    (walk : (language table).Reaches (.start source) tokens last) {front back : List Character}
    {minus : Character} (whole : source.characters = front ++ minus :: back)
    (past : last.rest.length ≤ back.length) (negative : minus.scalar = '-')
    (followed : ¬Stops Character.isDigit back) :
    inString tokens (Text.ofCharacters front).length ∨
    (language table).InComment source (Text.ofCharacters front).length ∨
    last.rest.length < back.length ∧
      ∃ token ∈ tokens, ∃ form : NumeralForm, token.kind = form.kind ∧
        token.position.offset = (Text.ofCharacters front).length := by
  obtain ⟨earlier, cursor, made, next, later, inner, before, moves, further, rfl, left, read⟩ :=
    walk.exists_move whole (Nat.lt_succ_of_le past)
  obtain ⟨passed, split, placed, _⟩ := before.before
  obtain rfl : front = passed ++ inner := by
    refine List.append_cancel_right (whole.symm.trans ?_)
    rw [split, left, List.append_assoc]
  have offset : ((Text.ofCharacters (passed ++ inner)).length : Int) =
      cursor.position.offset + (Text.ofCharacters inner).length := by
    rw [placed, Text.ofCharacters_append, List.length_append, Nat.cast_add]
  have among {token : Token} (member : token ∈ made) : token ∈ earlier ++ (made ++ later) :=
    List.mem_append_right earlier (List.mem_append_left later member)
  obtain ⟨token, member, kind, position, longer⟩ | ⟨taken, rest, split, longer⟩ |
      ⟨rfl, goesOn, token, member, form, kind, position⟩ :=
    moves.of_minus before.sound left (Nat.le_of_lt_succ read) negative followed
  · refine .inl (inString_iff.mpr ⟨token, among member, kind, ?_, ?_⟩)
    · rw [position]
      omega
    · rw [Token.stop, position]
      omega
  · refine .inr (.inl ⟨earlier, cursor, _, ⟨before, _, _, split, rfl⟩, ?_, ?_⟩) <;> omega
  · refine .inr (.inr ⟨?_, token, among member, form, kind, ?_⟩)
    · obtain ⟨others, reads, _⟩ := further.segment
      have sized := congrArg List.length reads
      rw [List.length_append] at sized
      omega
    · rw [position, offset, Text.ofCharacters_nil, List.length_nil, Nat.cast_zero, Int.add_zero]

/-- A numeral without a sign has no minus sign right before it, outside strings and comments. -/
theorem Reaches.of_unsigned {cursor : Cursor} {rule : Rule} {taken rest : List Character}
    (walk : (language table).Reaches (.start source) tokens cursor)
    (split : (language table).registry.split? cursor.rest = some (rule, taken, rest))
    {form : NumeralForm} (numeral : rule.kind = form.kind) (unsigned : 45 ∉ Text.ofCharacters taken)
    {offset : Nat} (placed : cursor.position.offset = offset + 1)
    (minus : source[offset]? = some 45) :
    inString tokens offset ∨ (language table).InComment source offset := by
  obtain ⟨reads, takes⟩ := split?_language_iff.mp split
  obtain ⟨front, back, whole, rfl, dropped⟩ := Text.exists_of_getElem? (by decide) minus
  have left : cursor.rest = back := by
    have after := walk.drop_offset.2
    have place : cursor.position.offset.toNat = (Text.ofCharacters front).length + 1 := by omega
    rw [place, dropped] at after
    rw [← after]
    exact Text.characters_ofCharacters_right (whole.trans (List.append_cons front _ back))
  have plain : ∀ character ∈ taken, character.scalar ≠ '-' := by
    intro character member negative
    have known := walk.sound character (reads ▸ List.mem_append_left rest member)
    have spelled : 45 ∈ character.bytes := (known.ascii_mem_iff (by decide)).mpr
      ((Character.scalar_eq_iff '-').mp negative)
    exact unsigned (List.mem_flatMap.mpr ⟨character, member, spelled⟩)
  have followed := takes.starts_of_unsigned numeral plain
  rw [← reads, left] at followed
  -- A numeral before this one would go on after its sign and leave less.
  obtain string | comment | ⟨further, _⟩ :=
    walk.of_minus whole (by rw [left]) (by rfl) followed
  · exact .inl string
  · exact .inr comment
  · rw [left] at further
    omega

/-- A token that is no keyword is made by a rule of its kind, at a cursor that the tokens before it
lead to. -/
theorem Scans.exists_rule {scanner : Scanner} {final : Int} {error : Option ScanError}
    (scans : scanner.Scans source.characters .start 1 tokens final error) {token : Token}
    (member : token ∈ tokens) (plain : ∀ kind, token.kind ≠ .reserved kind) :
    ∃ earlier cursor rule taken rest, earlier ⊆ tokens ∧
      scanner.Reaches (.start source) earlier cursor ∧
      scanner.registry.split? cursor.rest = some (rule, taken, rest) ∧ rule.kind = token.kind ∧
      token.lexeme = Text.ofCharacters taken ∧ token.position = cursor.position := by
  obtain ⟨earlier, later, rfl⟩ := List.append_of_mem member
  obtain ⟨cursor, rule, taken, rest, walk, split, read⟩ := scans.exists_reaches_token
  obtain ⟨lexeme, _, position⟩ := Piece.eq_of_read_token read
  obtain ⟨_, kind | ⟨_, keyword, reserved⟩⟩ := Piece.kind_of_read_token read
  · exact ⟨earlier, cursor, rule, taken, rest, List.subset_append_left _ _, walk, split, kind.symm,
      lexeme, position⟩
  · exact absurd reserved (plain keyword)

/-- What a match leaves is what follows the end of its token in the source. -/
theorem Reaches.drop_stop {scanner : Scanner} {cursor : Cursor} {taken rest : List Character}
    (walk : scanner.Reaches (.start source) tokens cursor) (reads : cursor.rest = taken ++ rest)
    {token : Token} (lexeme : token.lexeme = Text.ofCharacters taken)
    (position : token.position = cursor.position) :
    source.drop token.stop.toNat = Text.ofCharacters rest := by
  obtain ⟨before, whole, placed, _⟩ := walk.before
  rw [reads, ← List.append_assoc] at whole
  have dropped := Text.drop_of_characters whole
  rw [Text.ofCharacters_append, List.length_append] at dropped
  rw [← dropped, Token.stop, position, placed, lexeme]
  congr 1

end Scanner

/-- What stops digits starts with no digit, wherever it stands in a text. -/
theorem Text.isDigit_of_stops {text : Text} {offset : Nat} {back : List Character}
    (dropped : text.drop offset = ofCharacters back) (sound : ∀ character ∈ back, character.Sound)
    (stops : Lexis.Stops Character.isDigit back) :
    ∀ digit ∈ text[offset]?, Numeral.isDigit digit = false := by
  rw [← List.head?_drop]
  rw [dropped]
  exact stops.head?_isDigit sound

/-- Signs are absorbed. With the rules of the language and any keyword table, in a source that is
scanned to its end every minus sign right before a digit, outside strings and comments, is the first
byte of a numeral. No subtraction has a digit right after it, and no numeral without a sign has a
minus sign right before it, outside strings and comments. -/
theorem Scanner.sign_absorbed {table : Option KeywordTable} {scanner : Scanner}
    (built : Scanner.build table Rule.defaults = .ok scanner) {source : Text} {tokens : List Token}
    (scanned : scanner.scan source = .ok tokens) :
    (∀ (offset : Nat) (digit : UInt8), source[offset]? = some 45 →
      source[offset + 1]? = some digit → Numeral.isDigit digit →
      inString tokens offset = false → ¬scanner.InComment source offset →
      ∃ token ∈ tokens, ∃ form : NumeralForm, token.kind = form.kind ∧
        token.position.offset = offset) ∧
    (∀ token ∈ tokens, token.kind = .operator .sub →
      ∀ digit ∈ source[token.stop.toNat]?, Numeral.isDigit digit = false) ∧
    (∀ token ∈ tokens, ∀ form : NumeralForm, token.kind = form.kind → 45 ∉ token.lexeme →
      ∀ offset : Nat, token.position.offset = offset + 1 → source[offset]? = some 45 →
      inString tokens offset ∨ scanner.InComment source offset) := by
  obtain ⟨words, _, rfl⟩ := language_of_built built
  have scans := language_scans words source
  rw [scan_eq_ok_iff.mp scanned] at scans
  refine ⟨?_, ?_, ?_⟩
  · intro offset digit minus next numeric outside uncommented
    obtain ⟨cursor, walk, _, ends⟩ := scans.exists_reaches
    obtain ⟨front, back, whole, rfl, dropped⟩ := Text.exists_of_getElem? (by decide) minus
    have sound := source.sound_of_mem_characters
    rw [whole] at sound
    have followed : ¬Lexis.Stops Character.isDigit back := by
      intro stops
      have := Text.isDigit_of_stops dropped
        (List.forall_mem_cons.mp (List.forall_mem_append.mp sound).2).2 stops digit next
      rw [numeric] at this
      contradiction
    have done : cursor.rest = [] := by
      cases ends
      rfl
    obtain string | comment | ⟨_, found⟩ :=
      walk.of_minus whole (by simp [done]) (by rfl) followed
    · rw [string] at outside
      contradiction
    · exact absurd comment uncommented
    · exact found
  · intro token member subtracts
    obtain ⟨_, cursor, rule, taken, rest, _, walk, split, kind, lexeme, position⟩ :=
      scans.exists_rule member (by simp [subtracts])
    obtain ⟨reads, takes⟩ := Lexis.split?_language_iff.mp split
    have sound := walk.sound
    rw [reads] at sound
    exact Text.isDigit_of_stops (walk.drop_stop reads lexeme position)
      (List.forall_mem_append.mp sound).2 (takes.stops_of_sub (kind.trans subtracts))
  · intro token member form numeral unsigned offset placed minus
    obtain ⟨earlier, cursor, rule, taken, rest, among, walk, split, kind, lexeme, position⟩ :=
      scans.exists_rule member (by cases form <;> simp [numeral, NumeralForm.kind])
    rw [lexeme] at unsigned
    rw [position] at placed
    obtain string | comment :=
      walk.of_unsigned split (kind.trans numeral) unsigned placed minus
    · obtain ⟨other, before, inside⟩ := inString_iff.mp string
      exact .inl (inString_iff.mpr ⟨other, among before, inside⟩)
    · exact .inr comment

/-- After a name, with a sign in a string and another in a comment further on, a sign and a digit are
a numeral. -/
theorem Scanner.sign_absorbed_name :
    ∃ tokens, (language .empty).scan (Text.ofString "x-1 \"-2\" #-3") = .ok tokens ∧
      ∃ token ∈ tokens, ∃ form : NumeralForm, token.kind = form.kind ∧
        token.position.offset = 1 := by
  have scanned : (language .empty).scan (Text.ofString "x-1 \"-2\" #-3") =
      .ok [⟨.operand .identifier, "x", some (.string "x"), 1, ⟨1, 1, 0⟩⟩,
        ⟨.operand .integer, "-1", some (.integer (-1)), 1, ⟨1, 2, 1⟩⟩,
        ⟨.operand .string, "\"-2\"", some (.string "-2"), 1, ⟨1, 5, 4⟩⟩] := by rfl
  refine ⟨_, scanned, (sign_absorbed (build_defaults .empty) scanned).1 1 49 (by rfl) (by rfl)
    (by decide) (by rfl) ?_⟩
  rintro ⟨earlier, cursor, lexeme, found, start, _⟩
  obtain ⟨body, rfl, _⟩ := found.split_comment
  obtain ⟨before, after, split, placed⟩ := found.located
  rw [placed, Position.advance_offset] at start
  have mark : (Text.ofString "x-1 \"-2\" #-3")[before.length]? = some 35 := by
    rw [split]
    simp
  have near : before.length ≤ 1 := by
    simp only [Position.start] at start
    omega
  interval_cases before.length <;> contradiction

end Aml
