import Mathlib
import Aml.Diagnostic.Lexical
import Aml.Proofs.Scan.Illegal

/-!
# Strings that are never closed

The diagnostic of an illegal quote says that its string is never closed. What would close it is the
next quote that belongs to no backslash (`Lexis.Closes`). The pattern of strings lets a newline stand
in a string, but not after a backslash, so a quote starts no string exactly when whatever closes it
comes after such a newline (`Lexis.split?_quote_eq_none_iff`). Where no newline is escaped the hint
is right, and only there (`Scanner.unclosed_exact`): a string with an escaped newline can be closed
and is reported all the same (`Scanner.unclosed_closed`).
-/
namespace Aml

/-! ## Closing quotes -/

namespace Lexis

/-- What stands before a closing quote. A backslash goes with the character after it, whatever this
is. -/
inductive IsInside : List Character → Prop where
  | nil : IsInside []
  | plain {character : Character} {rest : List Character} (unquoted : character.scalar ≠ '"')
      (unescaped : character.scalar ≠ '\\') (later : IsInside rest) : IsInside (character :: rest)
  | escape {backslash escaped : Character} {rest : List Character}
      (escapes : backslash.scalar = '\\') (later : IsInside rest) :
      IsInside (backslash :: escaped :: rest)

/-- What comes after an opening quote starts with an inside and a closing quote. -/
def Closes (inside after : List Character) : Prop :=
  IsInside inside ∧ ∃ closing rest, closing.scalar = '"' ∧ after = inside ++ closing :: rest

/-- A newline goes with a backslash. -/
def EscapesNewline (inside : List Character) : Prop :=
  ∃ front backslash ending back, inside = front ++ backslash :: ending :: back ∧
    IsInside front ∧ backslash.scalar = '\\' ∧ ending.isNewline

variable {body front back after : List Character} {opening backslash ending : Character}

/-- The pattern of strings is no laxer than a reader of closing quotes. -/
theorem IsBody.isInside (sound : IsBody body) : IsInside body := by
  induction sound with
  | nil => exact .nil
  | plain unquoted unescaped _ ih => exact .plain unquoted unescaped ih
  | escape escapes _ _ ih => exact .escape escapes ih

/-- What comes after any other character than a backslash is again an inside of the pattern. -/
theorem IsBody.of_plain {character : Character} (sound : IsBody (character :: body))
    (unescaped : character.scalar ≠ '\\') : IsBody body := by
  cases sound with
  | plain _ _ later => exact later
  | escape escapes => contradiction

/-- What comes after a backslash is no newline, and then again an inside of the pattern. -/
theorem IsBody.of_escape {escaped : Character} (sound : IsBody (backslash :: escaped :: body))
    (escapes : backslash.scalar = '\\') : escaped.isNewline = false ∧ IsBody body := by
  cases sound with
  | plain _ unescaped => contradiction
  | escape _ inline later => exact ⟨inline, later⟩

/-- The pattern of strings lets no newline go with a backslash. -/
theorem IsBody.isNewline_eq_false (sound : IsBody (front ++ backslash :: ending :: back))
    (inside : IsInside front) (escapes : backslash.scalar = '\\') : ending.isNewline = false := by
  -- Both read the front in the same steps, because a backslash never stands for itself.
  induction inside with
  | nil => exact (sound.of_escape escapes).1
  | plain _ unescaped _ ih => exact ih (sound.of_plain unescaped)
  | escape marked _ ih => exact ih (sound.of_escape marked).2

/-- The pattern of strings refuses escaped newlines and nothing else. -/
theorem isBody_iff : IsBody body ↔ IsInside body ∧ ¬EscapesNewline body := by
  constructor
  · refine fun sound => ⟨sound.isInside, ?_⟩
    rintro ⟨front, backslash, ending, back, rfl, inside, escapes, ends⟩
    have inline := sound.isNewline_eq_false inside escapes
    rw [ends] at inline
    contradiction
  · rintro ⟨inside, inline⟩
    induction inside with
    | nil => exact .nil
    | @plain character rest unquoted unescaped _ ih =>
      refine .plain unquoted unescaped (ih ?_)
      rintro ⟨front, backslash, ending, back, rfl, first, escapes, ends⟩
      exact inline ⟨character :: front, backslash, ending, back, rfl,
        .plain unquoted unescaped first, escapes, ends⟩
    | @escape mark escaped rest marked _ ih =>
      refine .escape marked ?_ (ih ?_)
      · exact Bool.eq_false_iff.mpr fun ends =>
          inline ⟨[], mark, escaped, rest, rfl, .nil, marked, ends⟩
      · rintro ⟨front, backslash, ending, back, rfl, first, escapes, ends⟩
        exact inline ⟨mark :: escaped :: front, backslash, ending, back, rfl,
          .escape marked first, escapes, ends⟩

/-- Only strings start with a quote. -/
theorem Reads.string_of_quote {rule : Rule} {length : Nat} (opens : opening.scalar = '"')
    (reads : Reads (opening :: after) rule length) : string? (opening :: after) = some length := by
  have quoted : opening.scalar.toNat = 34 := (Character.scalar_eq_iff '"').mp opens
  cases reads with
  | string read => exact read
  | real read =>
    have := real?_first read
    omega
  | integer _ read =>
    have := integer?_first read
    omega
  | name read =>
    have := Character.isLetter_iff.mp (headed?_first read)
    omega
  | comment read =>
    have := comment?_first read
    omega
  | newlines read =>
    have := Character.isNewline_iff.mp (headed?_first read)
    omega
  | blanks read =>
    have := Character.isBlank_iff.mp (headed?_first read)
    omega
  | operator _ read =>
    have := startsWith_first _ (operator?_starts read)
    rw [quoted] at this
    contradiction

/-- No rule takes anything at a quote exactly when whatever closes it has an escaped newline before
it. -/
theorem split?_quote_eq_none_iff (opens : opening.scalar = '"') :
    Registry.language.split? (opening :: after) = none ↔
      ∀ body, Closes body after → EscapesNewline body := by
  constructor
  · rintro stuck body ⟨inside, closing, rest, closes, rfl⟩
    by_contra inline
    have takes : Takes Rule.stringLiteral (opening :: (body ++ [closing])) rest :=
      .string opens (isBody_iff.mpr ⟨inside, inline⟩) closes
    have split := split?_language_iff.mpr ⟨rfl, takes⟩
    rw [List.cons_append, List.append_assoc, List.singleton_append, stuck] at split
    contradiction
  · intro escaped
    refine Option.eq_none_iff_forall_ne_some.mpr ?_
    rintro ⟨rule, taken, rest⟩ split
    obtain ⟨whole, takes⟩ := split?_language_iff.mp split
    have reads := reads_iff_takes.mpr takes
    rw [← whole] at reads
    obtain ⟨quote, body, closing, left, same, _, sound, closes, _⟩ :=
      string?_eq_some_iff.mp (reads.string_of_quote opens)
    rw [List.cons_append, List.append_assoc, List.singleton_append, List.cons.injEq] at same
    exact (isBody_iff.mp sound).2 (escaped body ⟨sound.isInside, closing, left, closes, same.2⟩)

end Lexis

/-! ## The hint -/

/-- The hint at an illegal quote. -/
def Diagnostic.neverClosed : Suggestion where
  message := "this string literal is never closed; add a closing '\"'"

/-- The hint is given at illegal quotes and nowhere else. -/
theorem Diagnostic.neverClosed_mem_iff {error : ScanError} {diagnostic : Diagnostic}
    (diagnosed : ofFailure? (.scan error) = some diagnostic) :
    neverClosed ∈ diagnostic.suggestions ↔
      ∃ line, error = .illegalCharacter '"' line diagnostic.position := by
  have found : ofScanError? error = some diagnostic := diagnosed
  cases error with
  | conversion | noRule | unlocated => contradiction
  | malformedNumber =>
    obtain rfl := Option.some.inj found
    refine ⟨fun listed => ?_, fun ⟨_, same⟩ => ?_⟩
    · cases listed
    · cases same
  | illegalCharacter character line position =>
    obtain rfl := Option.some.inj found
    constructor
    · intro listed
      have suggested := Option.mem_toList.mp listed
      unfold suggestion? at suggested
      split at suggested
      case h_5 => exact ⟨line, rfl⟩
      case h_8 => contradiction
      all_goals exact absurd (congrArg Suggestion.message (Option.some.inj suggested)) (by decide)
    · rintro ⟨other, same⟩
      obtain ⟨rfl, _, _⟩ := ScanError.illegalCharacter.inj same
      exact List.mem_singleton_self _

namespace Scanner

open Lexis

variable {table : KeywordTable} {source : Text} {tokens : List Token} {cursor : Cursor}

/-- What comes after a quote at a cursor is what follows its byte in the source. -/
theorem Reaches.characters_after_quote {scanner : Scanner}
    (walk : scanner.Reaches (.start source) tokens cursor) {opening : Character}
    {after : List Character} (left : cursor.rest = opening :: after)
    (opens : opening.scalar = '"') :
    Text.characters (source.drop (cursor.position.offset.toNat + 1)) = after := by
  obtain ⟨before, whole, placed, _⟩ := walk.before
  have spelled := (walk.sound opening (by simp [left])).ascii (by rw [opens]; decide)
  rw [left, List.append_cons] at whole
  have dropped := Text.drop_of_characters whole
  rw [Text.ofCharacters_append, Text.ofCharacters_cons, spelled] at dropped
  rw [placed, Int.toNat_natCast, ← Text.characters_ofCharacters_right whole, ← dropped]
  simp

/-- A scan of the language fails at a quote that it gets to exactly when whatever closes the quote
has an escaped newline before it. -/
theorem Reaches.quote_illegal_iff (walk : (language table).Reaches (.start source) tokens cursor)
    (opens : cursor.rest.head?.map Character.scalar = some '"') :
    (language table).scan source = .error (.illegalCharacter '"' cursor.line cursor.position) ↔
      ∀ body, Closes body (Text.characters (source.drop (cursor.position.offset.toNat + 1))) →
        EscapesNewline body := by
  obtain ⟨opening, first, quoted⟩ := Option.map_eq_some_iff.mp opens
  obtain ⟨after, left⟩ := List.head?_eq_some_iff.mp first
  rw [walk.illegal_iff, and_iff_right opens, walk.characters_after_quote left quoted, left]
  exact split?_quote_eq_none_iff quoted

end Scanner

open Lexis in
/-- How far the hint at an illegal quote is right. With the rules of the language and any keyword
table, the hint that a string is never closed is given exactly at illegal quotes. Where a scan fails
at one, whatever closes it has an escaped newline before it, so nothing closes it if no newline is
escaped. And a scan that gets to a quote fails there exactly in this case. -/
theorem Scanner.unclosed_exact {table : Option KeywordTable} {scanner : Scanner}
    (built : Scanner.build table Rule.defaults = .ok scanner) :
    (∀ error diagnostic, Diagnostic.ofFailure? (.scan error) = some diagnostic →
      (Diagnostic.neverClosed ∈ diagnostic.suggestions ↔
        ∃ line, error = .illegalCharacter '"' line diagnostic.position)) ∧
    (∀ source line position,
      scanner.scan source = .error (.illegalCharacter '"' line position) →
      ∀ body, Closes body (Text.characters (source.drop (position.offset.toNat + 1))) →
        EscapesNewline body) ∧
    ∀ source tokens cursor, scanner.Reaches (.start source) tokens cursor →
      cursor.rest.head?.map Character.scalar = some '"' →
      (scanner.scan source = .error (.illegalCharacter '"' cursor.line cursor.position) ↔
        ∀ body, Closes body (Text.characters (source.drop (cursor.position.offset.toNat + 1))) →
          EscapesNewline body) := by
  obtain ⟨words, _, rfl⟩ := language_of_built built
  refine ⟨fun _ _ => Diagnostic.neverClosed_mem_iff, ?_, fun _ _ _ => Reaches.quote_illegal_iff⟩
  intro source line position failed
  obtain ⟨mark, rest, quoted, walk, _⟩ := exists_reaches_of_illegal failed
  exact (walk.quote_illegal_iff (congrArg some quoted)).mp failed

open Lexis in
/-- The only quote after the illegal one is escaped, and so is no newline: nothing closes the
string. -/
theorem Scanner.unclosed_exact_escaped :
    (language .empty).scan (Text.ofString "x = \"a\\\"") =
        .error (.illegalCharacter '"' 1 ⟨1, 5, 4⟩) ∧
      ∀ body, ¬Closes body (Text.characters ((Text.ofString "x = \"a\\\"").drop 5)) := by
  have failed : (language .empty).scan (Text.ofString "x = \"a\\\"") =
      .error (.illegalCharacter '"' 1 ⟨1, 5, 4⟩) := by rfl
  refine ⟨failed, fun body closes => ?_⟩
  obtain ⟨front, backslash, ending, back, rfl, _, _, ends⟩ :=
    (unclosed_exact (build_defaults .empty)).2.1 _ _ _ failed body closes
  obtain ⟨_, closing, rest, _, whole⟩ := closes
  have inline : ∀ character ∈ Text.characters ((Text.ofString "x = \"a\\\"").drop 5),
      character.isNewline = false := by decide +kernel
  have member : ending ∈ Text.characters ((Text.ofString "x = \"a\\\"").drop 5) := by
    rw [whole]
    simp
  rw [inline ending member] at ends
  contradiction

open Lexis in
/-- A string with an escaped newline is closed, and its opening quote is illegal. -/
theorem Scanner.unclosed_closed :
    (language .empty).scan (Text.ofString "\"\\\n\"") = .error (.illegalCharacter '"' 1 .start) ∧
      ∃ body, Closes body (Text.characters ((Text.ofString "\"\\\n\"").drop 1)) :=
  ⟨by rfl, [.ofByte 92, .ofByte 10], .escape (by decide) .nil, .ofByte 34, [], by decide, by rfl⟩

end Aml
