import Mathlib
import Aml.Proofs.Pattern.Semantics
import Aml.Proofs.Scan.Language

/-!
# The first match is the longest

The rules of the language are tried in order and the first that matches wins. Here the winner is
compared with all matches that the patterns of all rules allow: it is the only one of greatest
length (`Lexis.choose_iff_isLongest`), so neither the order of the rules nor the preferences
within a pattern can be seen in a scan. A reference that takes a longest match at every cursor,
`LongestScans`, gives the tokens and the error of the scan.
-/
namespace Aml

/-- What the pattern of a rule allows to be taken in front of the rest. -/
def Rule.Accepts (rule : Rule) (taken rest : List Character) : Prop :=
  match rule.tier with
  | .simple => taken.map Character.scalar = rule.pattern.characters.map Character.scalar
  | _ => ∃ pattern, Pattern.parse rule.pattern = .ok pattern ∧ pattern.Matches none taken rest

/-- The pattern of a rule allows a match of a length. -/
def Rule.Admits (rule : Rule) (characters : List Character) (length : Nat) : Prop :=
  ∃ taken rest, characters = taken ++ rest ∧ length = taken.length ∧ rule.Accepts taken rest

/-- A longest match among those that the patterns of rules allow. -/
structure IsLongest (rules : List Rule) (characters : List Character) (rule : Rule)
    (length : Nat) : Prop where
  /-- The rule is one of the rules. -/
  listed : rule ∈ rules
  /-- The rule allows the match. -/
  admits : rule.Admits characters length
  /-- No rule allows a longer one. -/
  longest : ∀ other ∈ rules, ∀ size, other.Admits characters size → size ≤ length

namespace Lexis

/-! ## The languages of the rules -/

open Pattern

variable {taken rest characters : List Character} {length : Nat}

/-- A content rule accepts what its parsed pattern matches. -/
theorem accepts_of_parse {rule : Rule} {pattern : Pattern} (content : rule.tier = .content)
    (parsed : Pattern.parse rule.pattern = .ok pattern) :
    rule.Accepts taken rest ↔ pattern.Matches none taken rest := by
  unfold Rule.Accepts
  rw [content, parsed]
  simp

/-- A literal outside case folding stands for its own character. -/
theorem literalSet_contains (scalar : Char) (character : Character) :
    (literalSet scalar.toNat false).contains character.scalar.toNat =
      decide (character.scalar = scalar) :=
  CharSet.contains_single ..

/-- A literal matches its own character. -/
theorem matches_literal {scalar : Char} {before : Option Character} :
    Matches (.literal scalar.toNat false) before taken rest ↔
      ∃ character : Character, taken = [character] ∧ character.scalar = scalar := by
  simp only [Matches.literal_iff, literalSet_contains, decide_eq_true_eq]

/-- Digits match as digits. -/
theorem matches_digits {before : Option Character} :
    Matches (.plus (.oneOf CharSet.digits) true) before taken rest ↔ IsDigits taken :=
  Matches.plus_run_iff Matches.oneOf_iff

/-- A minus sign or nothing matches as a sign. -/
theorem matches_sign {before : Option Character} :
    Matches (.optional (.literal '-'.toNat false) true) before taken rest ↔ IsSign taken := by
  rw [Matches.optional_iff, matches_literal, IsSign]
  simp only [and_comm]

/-- The language of numerals without a point. -/
theorem accepts_integerNumeral :
    Rule.integerNumeral.Accepts taken rest ↔
      ∃ sign whole, taken = sign ++ whole ∧ IsSign sign ∧ IsDigits whole := by
  have parsed : Pattern.parse Rule.integerNumeral.pattern =
      .ok (.sequence (.optional (.literal '-'.toNat false) true)
        (.plus (.oneOf CharSet.digits) true)) := by rfl
  rw [accepts_of_parse rfl parsed]
  simp only [Matches.sequence_iff, matches_sign, matches_digits]

/-- The language of numerals with a point. -/
theorem accepts_realNumeral :
    Rule.realNumeral.Accepts taken rest ↔
      ∃ sign whole point fraction, taken = sign ++ (whole ++ point :: fraction) ∧ IsSign sign ∧
        IsDigits whole ∧ point.scalar = '.' ∧ IsDigits fraction := by
  have parsed : Pattern.parse Rule.realNumeral.pattern =
      .ok (.sequence (.optional (.literal '-'.toNat false) true)
        (.sequence (.plus (.oneOf CharSet.digits) true)
          (.sequence (.literal '.'.toNat false) (.plus (.oneOf CharSet.digits) true)))) := by rfl
  rw [accepts_of_parse rfl parsed]
  simp only [Matches.sequence_iff, matches_sign, matches_digits, matches_literal]
  constructor
  · rintro ⟨sign, _, rfl, signed, whole, _, rfl, digits, _, fraction, rfl, ⟨point, rfl, pointed⟩,
      places⟩
    exact ⟨sign, whole, point, fraction, rfl, signed, digits, pointed, places⟩
  · rintro ⟨sign, whole, point, fraction, rfl, signed, digits, pointed, places⟩
    exact ⟨sign, _, rfl, signed, whole, _, rfl, digits, [point], fraction, rfl,
      ⟨point, rfl, pointed⟩, places⟩

/-- The language of a character with one property and then a run with another. -/
theorem matches_headed {head body : Pattern} {first later : Character → Bool}
    {before : Option Character}
    (heads : ∀ {before taken rest}, Matches head before taken rest ↔
      ∃ character, taken = [character] ∧ first character)
    (rounds : ∀ {before taken rest}, Matches body before taken rest ↔
      ∃ character, taken = [character] ∧ later character) :
    Matches (.sequence head (.star body true)) before taken rest ↔
      ∃ character parts, taken = character :: parts ∧ first character ∧
        ∀ part ∈ parts, later part := by
  simp only [Matches.sequence_iff, heads, Matches.star_iff rounds]
  constructor
  · rintro ⟨_, parts, rfl, ⟨character, rfl, starts⟩, all⟩
    exact ⟨character, parts, rfl, starts, all⟩
  · rintro ⟨character, parts, rfl, starts, all⟩
    exact ⟨[character], parts, rfl, ⟨character, rfl, starts⟩, all⟩

/-- The language of names. -/
theorem accepts_identifier :
    Rule.identifier.Accepts taken rest ↔
      ∃ first parts, taken = first :: parts ∧ first.isLetter ∧
        ∀ part ∈ parts, part.isNamePart := by
  have parsed : Pattern.parse Rule.identifier.pattern =
      .ok (.sequence (.oneOf Character.letters) (.star (.oneOf Character.nameParts) true)) := by
    rfl
  rw [accepts_of_parse rfl parsed]
  exact matches_headed Matches.oneOf_iff Matches.oneOf_iff

/-- The language of comments. -/
theorem accepts_comment :
    Rule.comment.Accepts taken rest ↔
      ∃ mark body, taken = mark :: body ∧ mark.scalar = '#' ∧
        ∀ part ∈ body, part.isNewline = false := by
  have parsed : Pattern.parse Rule.comment.pattern =
      .ok (.sequence (.literal '#'.toNat false) (.star (.oneOf CharSet.notNewline) true)) := by
    rfl
  have rounds {before : Option Character} {taken rest : List Character} :
      Matches (.oneOf CharSet.notNewline) before taken rest ↔
        ∃ character, taken = [character] ∧ !character.isNewline := by
    simp only [Matches.oneOf_iff, notNewline_contains]
  have heads {before : Option Character} {taken rest : List Character} :
      Matches (.literal '#'.toNat false) before taken rest ↔
        ∃ character : Character, taken = [character] ∧ decide (character.scalar = '#') := by
    simp only [matches_literal, decide_eq_true_eq]
  rw [accepts_of_parse rfl parsed, matches_headed heads rounds]
  simp only [decide_eq_true_eq, Bool.not_eq_true']

/-- The language of newlines. -/
theorem accepts_newlineRun :
    Rule.newlineRun.Accepts taken rest ↔ taken ≠ [] ∧ ∀ part ∈ taken, part.isNewline := by
  have parsed : Pattern.parse Rule.newlineRun.pattern =
      .ok (.plus (.literal '\n'.toNat false) true) := by rfl
  rw [accepts_of_parse rfl parsed]
  refine Matches.plus_run_iff ?_
  intro before taken rest
  simp only [matches_literal, Character.isNewline, decide_eq_true_eq]

/-- The language of blanks. -/
theorem accepts_blankRun :
    Rule.blankRun.Accepts taken rest ↔ taken ≠ [] ∧ ∀ part ∈ taken, part.isBlank := by
  have parsed : Pattern.parse Rule.blankRun.pattern =
      .ok (.plus (.oneOf (.union (.single ' '.toNat) (.single '\t'.toNat))) true) := by rfl
  rw [accepts_of_parse rfl parsed]
  refine Matches.plus_run_iff ?_
  intro before taken rest
  simp only [Matches.oneOf_iff, blanks_contains]

/-- The pattern of one part of a string: a plain character, or a backslash and a character. -/
def bodyPart : Pattern :=
  .group (.choice (.oneOf (.complement (.union (.single '\\'.toNat) (.single '"'.toNat))))
    (.group (.sequence (.literal '\\'.toNat false) (.oneOf CharSet.notNewline))))

/-- The parts of strings. -/
theorem matches_bodyPart {before : Option Character} :
    bodyPart.Matches before taken rest ↔
      (∃ character : Character, taken = [character] ∧ character.scalar ≠ '"' ∧
        character.scalar ≠ '\\') ∨
      ∃ backslash escaped : Character, taken = [backslash, escaped] ∧
        backslash.scalar = '\\' ∧ escaped.isNewline = false := by
  have plain (character : Character) :
      (CharSet.complement (.union (.single '\\'.toNat) (.single '"'.toNat))).contains
        character.scalar.toNat ↔ character.scalar ≠ '"' ∧ character.scalar ≠ '\\' := by
    rw [CharSet.contains, CharSet.contains, CharSet.contains_single, CharSet.contains_single]
    simp [and_comm]
  simp only [bodyPart, Matches.group_iff, Matches.choice_iff, Matches.sequence_iff,
    Matches.oneOf_iff, matches_literal, plain, notNewline_contains, Bool.not_eq_true']
  refine or_congr_right ⟨?_, ?_⟩
  · rintro ⟨_, _, rfl, ⟨backslash, rfl, escapes⟩, escaped, rfl, inline⟩
    exact ⟨backslash, escaped, rfl, escapes, inline⟩
  · rintro ⟨backslash, escaped, rfl, escapes, inline⟩
    exact ⟨[backslash], [escaped], rfl, ⟨backslash, rfl, escapes⟩, escaped, rfl, inline⟩

/-- The language of the insides of strings. -/
theorem matches_body {before : Option Character} :
    Matches (.star bodyPart true) before taken rest ↔ IsBody taken := by
  constructor
  · intro matched
    generalize looped : Pattern.star bodyPart true = pattern at matched
    induction matched with
    | done => exact .nil
    | again round later _ ih =>
      obtain ⟨rfl, rfl⟩ := Pattern.star.inj looped
      obtain ⟨character, rfl, unquoted, unescaped⟩ | ⟨backslash, escaped, rfl, escapes, inline⟩ :=
        matches_bodyPart.mp round
      · exact .plain unquoted unescaped (ih rfl)
      · exact .escape escapes inline (ih rfl)
    | _ => contradiction
  · intro sound
    induction sound generalizing before with
    | nil => exact .done
    | @plain character others unquoted unescaped later ih =>
      exact .again (matches_bodyPart.mpr (.inl ⟨character, rfl, unquoted, unescaped⟩)) ih
    | @escape backslash escaped others escapes inline later ih =>
      exact .again (matches_bodyPart.mpr (.inr ⟨backslash, escaped, rfl, escapes, inline⟩)) ih

/-- The language of strings. -/
theorem accepts_stringLiteral :
    Rule.stringLiteral.Accepts taken rest ↔
      ∃ opening body closing, taken = opening :: (body ++ [closing]) ∧ opening.scalar = '"' ∧
        IsBody body ∧ closing.scalar = '"' := by
  have parsed : Pattern.parse Rule.stringLiteral.pattern =
      .ok (.sequence (.literal '"'.toNat false) (.sequence (.star bodyPart true)
        (.literal '"'.toNat false))) := by rfl
  rw [accepts_of_parse rfl parsed]
  simp only [Matches.sequence_iff, matches_literal, matches_body]
  constructor
  · rintro ⟨_, _, rfl, ⟨opening, rfl, opens⟩, body, _, rfl, inner, closing, rfl, closes⟩
    exact ⟨opening, body, closing, rfl, opens, inner, closes⟩
  · rintro ⟨opening, body, closing, rfl, opens, inner, closes⟩
    exact ⟨[opening], _, rfl, ⟨opening, rfl, opens⟩, body, [closing], rfl, inner, closing, rfl,
      closes⟩

/-- The language of an operator. -/
theorem accepts_operator {operator : Operator} :
    operator.rule.Accepts taken rest ↔ taken.map Character.scalar = operator.scalars := by
  have spelled : operator.rule.pattern.characters.map Character.scalar = operator.scalars :=
    scalar_characters operator
  rw [Rule.Accepts, show operator.rule.tier = .simple from rfl]
  simp only [spelled]

/-! ## Every match of every rule -/

/-- The rules of the language are the content rules and those of the operators. -/
theorem mem_defaults_iff {rule : Rule} :
    rule ∈ Rule.defaults ↔
      rule ∈ Rule.contentRules ∨ ∃ operator : Operator, rule = operator.rule := by
  have simple : Rule.simpleRules = Operator.all.map Operator.rule := by rfl
  have all (operator : Operator) : operator ∈ Operator.all := by cases operator <;> decide
  rw [Rule.defaults, List.mem_append, simple, List.mem_map]
  refine or_congr_right ⟨?_, ?_⟩
  · rintro ⟨operator, _, rfl⟩
    exact ⟨operator, rfl⟩
  · rintro ⟨operator, rfl⟩
    exact ⟨operator, all operator, rfl⟩

/-- The match of a rule of the language, tried alone. -/
inductive Tries (characters : List Character) : Rule → Nat → Prop where
  | string {length : Nat} (read : string? characters = some length) :
      Tries characters Rule.stringLiteral length
  | real {length : Nat} (read : real? characters = some length) :
      Tries characters Rule.realNumeral length
  | integer {length : Nat} (read : integer? characters = some length) :
      Tries characters Rule.integerNumeral length
  | name {length : Nat} (read : name? characters = some length) :
      Tries characters Rule.identifier length
  | comment {length : Nat} (read : comment? characters = some length) :
      Tries characters Rule.comment length
  | newlines {length : Nat} (read : newlines? characters = some length) :
      Tries characters Rule.newlineRun length
  | blanks {length : Nat} (read : blanks? characters = some length) :
      Tries characters Rule.blankRun length
  | operator {operator : Operator} (starts : startsWith operator.scalars characters) :
      Tries characters operator.rule operator.scalars.length

/-- The attempts of the registry. -/
theorem tries_of_attempt {checked : CheckedRule} (listed : checked ∈ Registry.language.rules)
    (matched : checked.matcher.attempt characters = .matched length) :
    Tries characters checked.rule length := by
  have of_regular {program : Program}
      (matched : (Matcher.regular program).attempt characters = .matched length) :
      program.match? characters = some length := by
    rw [Matcher.attempt] at matched
    split at matched
    · obtain rfl := Trial.matched.inj matched
      assumption
    · contradiction
  rw [Registry.language, List.mem_append] at listed
  obtain content | simple := listed
  · simp only [Registry.contents, List.mem_cons, List.not_mem_nil, or_false] at content
    obtain rfl | rfl | rfl | rfl | rfl | rfl | rfl := content
    · exact .string (stringProgram_match? _ ▸ of_regular matched)
    · exact .real (realProgram_match? _ ▸ of_regular matched)
    · exact .integer (integerProgram_match? _ ▸ of_regular matched)
    · exact .name (nameProgram_match? _ ▸ of_regular matched)
    · exact .comment (commentProgram_match? _ ▸ of_regular matched)
    · exact .newlines (newlineProgram_match? _ ▸ of_regular matched)
    · exact .blanks (blankProgram_match? _ ▸ of_regular matched)
  · obtain ⟨operator, _, rfl⟩ := List.mem_map.mp simple
    rw [Operator.checked, Matcher.attempt] at matched
    split at matched
    · obtain rfl := Trial.matched.inj matched
      exact .operator ‹_›
    · contradiction

/-- Digits go on as long as digits follow. -/
theorem IsDigits.extend {digits : List Character} (numeric : IsDigits digits)
    (rest : List Character) : IsDigits (digits ++ rest.takeWhile Character.isDigit) :=
  ⟨by simp [numeric.1], List.forall_mem_append.mpr ⟨numeric.2, fun _ => List.mem_takeWhile_imp⟩⟩

/-- A class with a first character goes on as long as its later characters follow. -/
theorem headed?_extend {first later : Character → Bool} {character : Character}
    {parts : List Character} (starts : first character) (all : ∀ part ∈ parts, later part)
    (rest : List Character) :
    ∃ longest, headed? first later (character :: parts ++ rest) = some longest ∧
      (character :: parts).length ≤ longest := by
  refine ⟨_, headed?_eq_some_iff.mpr ⟨character, parts ++ rest.takeWhile later,
    rest.dropWhile later, ?_, starts,
    List.forall_mem_append.mpr ⟨all, fun _ => List.mem_takeWhile_imp⟩,
    stops_dropWhile later rest, rfl⟩, ?_⟩
  · rw [List.cons_append, List.cons_append, List.append_assoc, List.takeWhile_append_dropWhile]
  · simp

/-- A run goes on as long as its characters follow. -/
theorem headed?_extend_run {holds : Character → Bool} {run : List Character} (present : run ≠ [])
    (all : ∀ part ∈ run, holds part) (rest : List Character) :
    ∃ longest, headed? holds holds (run ++ rest) = some longest ∧ run.length ≤ longest := by
  obtain ⟨character, parts, rfl⟩ := List.exists_cons_of_ne_nil present
  obtain ⟨starts, later⟩ := List.forall_mem_cons.mp all
  exact headed?_extend starts later rest

/-- A rule of the language, tried alone, takes the longest match that its pattern allows. -/
theorem tries_of_admits {rule : Rule} (listed : rule ∈ Rule.defaults)
    (admits : rule.Admits characters length) :
    ∃ longest, Tries characters rule longest ∧ length ≤ longest := by
  obtain ⟨taken, rest, rfl, rfl, accepts⟩ := admits
  have split (holds : Character → Bool) : rest = rest.takeWhile holds ++ rest.dropWhile holds :=
    List.takeWhile_append_dropWhile.symm
  obtain content | ⟨operator, rfl⟩ := mem_defaults_iff.mp listed
  · simp only [Rule.contentRules, List.mem_cons, List.not_mem_nil, or_false] at content
    obtain rfl | rfl | rfl | rfl | rfl | rfl | rfl := content
    · obtain ⟨opening, body, closing, rfl, opens, inner, closes⟩ := accepts_stringLiteral.mp accepts
      exact ⟨_, .string (string?_eq_some_iff.mpr
        ⟨opening, body, closing, rest, rfl, opens, inner, closes, rfl⟩), Nat.le_refl _⟩
    · obtain ⟨sign, whole, point, fraction, rfl, signed, digits, pointed, places⟩ :=
        accepts_realNumeral.mp accepts
      refine ⟨_, .real (real?_eq_some_iff.mpr ⟨sign, whole, point,
        fraction ++ rest.takeWhile Character.isDigit, rest.dropWhile Character.isDigit, ?_, signed,
        digits, pointed, places.extend rest, stops_dropWhile _ _, rfl⟩), ?_⟩
      · conv_lhs => rw [split Character.isDigit]
        simp
      · simp
    · obtain ⟨sign, whole, rfl, signed, digits⟩ := accepts_integerNumeral.mp accepts
      refine ⟨_, .integer (integer?_eq_some_iff.mpr ⟨sign,
        whole ++ rest.takeWhile Character.isDigit, rest.dropWhile Character.isDigit, ?_, signed,
        digits.extend rest, stops_dropWhile _ _, rfl⟩), ?_⟩
      · conv_lhs => rw [split Character.isDigit]
        simp
      · simp
    · obtain ⟨first, parts, rfl, starts, all⟩ := accepts_identifier.mp accepts
      obtain ⟨longest, read, within⟩ := headed?_extend starts all rest
      exact ⟨longest, .name read, within⟩
    · obtain ⟨mark, body, rfl, marked, all⟩ := accepts_comment.mp accepts
      obtain ⟨longest, read, within⟩ := @headed?_extend (·.scalar = '#') (!·.isNewline) mark body
        (decide_eq_true marked) (by simpa using all) rest
      exact ⟨longest, .comment read, within⟩
    · obtain ⟨present, all⟩ := accepts_newlineRun.mp accepts
      obtain ⟨longest, read, within⟩ := headed?_extend_run present all rest
      exact ⟨longest, .newlines read, within⟩
    · obtain ⟨present, all⟩ := accepts_blankRun.mp accepts
      obtain ⟨longest, read, within⟩ := headed?_extend_run present all rest
      exact ⟨longest, .blanks read, within⟩
  · have spelled := accepts_operator.mp accepts
    refine ⟨_, .operator (startsWith_iff.mpr ?_), ?_⟩
    · rw [← spelled]
      exact (List.prefix_append taken rest).map Character.scalar
    · rw [← spelled, List.length_map]

/-- What a rule of the language takes is what its pattern allows. -/
theorem Takes.accepts {rule : Rule} (takes : Takes rule taken rest) :
    rule ∈ Rule.defaults ∧ rule.Accepts taken rest := by
  have listed {rule : Rule} (content : rule ∈ Rule.contentRules) : rule ∈ Rule.defaults :=
    mem_defaults_iff.mpr (.inl content)
  cases takes with
  | string opens inner closes =>
    exact ⟨listed (by simp [Rule.contentRules]),
      accepts_stringLiteral.mpr ⟨_, _, _, rfl, opens, inner, closes⟩⟩
  | real signed digits pointed places =>
    exact ⟨listed (by simp [Rule.contentRules]),
      accepts_realNumeral.mpr ⟨_, _, _, _, rfl, signed, digits, pointed, places⟩⟩
  | integer signed digits =>
    exact ⟨listed (by simp [Rule.contentRules]),
      accepts_integerNumeral.mpr ⟨_, _, rfl, signed, digits⟩⟩
  | name starts goesOn =>
    exact ⟨listed (by simp [Rule.contentRules]),
      accepts_identifier.mpr ⟨_, _, rfl, starts, goesOn⟩⟩
  | comment marked inner =>
    exact ⟨listed (by simp [Rule.contentRules]), accepts_comment.mpr ⟨_, _, rfl, marked, inner⟩⟩
  | newlines present all =>
    exact ⟨listed (by simp [Rule.contentRules]), accepts_newlineRun.mpr ⟨present, all⟩⟩
  | blanks present all =>
    exact ⟨listed (by simp [Rule.contentRules]), accepts_blankRun.mpr ⟨present, all⟩⟩
  | operator spelled =>
    exact ⟨mem_defaults_iff.mpr (.inr ⟨_, rfl⟩), accepts_operator.mpr spelled⟩

/-- What the registry chooses is what the pattern of the chosen rule allows. -/
theorem Reads.admits {rule : Rule} (reads : Reads characters rule length) :
    rule ∈ Rule.defaults ∧ rule.Admits characters length := by
  have within := Registry.choose_le (choose_eq_some_iff.mpr reads)
  obtain ⟨taken, rest, rfl, rfl⟩ :
      ∃ taken rest, characters = taken ++ rest ∧ length = taken.length :=
    ⟨characters.take length, characters.drop length, (List.take_append_drop _ _).symm,
      (List.length_take_of_le within).symm⟩
  obtain ⟨listed, accepts⟩ := (reads_iff_takes.mp reads).accepts
  exact ⟨listed, taken, rest, rfl, rfl, accepts⟩

/-- An operator before which a numeral starts is shorter than the numeral. -/
theorem operator_lt_integer? {operator : Operator} (starts : startsWith operator.scalars characters)
    (read : integer? characters = some length) : operator.scalars.length < length := by
  obtain ⟨scalar, scalars, split, plain, minus⟩ := scalars_unsigned operator
  cases characters with
  | nil => contradiction
  | cons character rest =>
    rw [split, startsWith, Bool.and_eq_true, decide_eq_true_eq] at starts
    obtain ⟨rfl, later⟩ := starts
    obtain ⟨negative, found, digits, rfl⟩ | ⟨_, digits⟩ := signed?_first read
    · obtain ⟨_, alone⟩ | assigns := minus ((Character.scalar_eq_iff _).mpr negative)
      · obtain ⟨run, _, _, numeric, _, rfl⟩ := digits?_eq_some_iff.mp digits
        have positive := List.length_pos_of_ne_nil numeric.1
        rw [split, alone, List.length_singleton]
        omega
      · obtain ⟨first, others, rfl, numeric⟩ := digits?_numeric digits
        rw [assigns, startsWith, Bool.and_eq_true, decide_eq_true_eq] at later
        rw [Character.isDigit, ← later.1] at numeric
        contradiction
    · have numeric := headed?_first digits
      rw [Character.isDigit, plain] at numeric
      contradiction

/-- A match of any rule is no longer than that of the chosen rule, and as long only if it is the
same. -/
theorem Tries.le {other : Rule} {size : Nat} (tries : Tries characters other size) :
    ∃ rule length, Reads characters rule length ∧ size ≤ length ∧
      (size = length → other = rule) := by
  cases tries with
  | string read => exact ⟨_, _, .string read, Nat.le_refl _, fun _ => rfl⟩
  | real read => exact ⟨_, _, .real read, Nat.le_refl _, fun _ => rfl⟩
  | integer read =>
    cases pointed : real? characters with
    | none => exact ⟨_, _, .integer pointed read, Nat.le_refl _, fun _ => rfl⟩
    | some length =>
      obtain ⟨whole, found, shorter⟩ := integer?_of_real? pointed
      obtain rfl := Option.some.inj (read.symm.trans found)
      exact ⟨_, _, .real pointed, shorter.le, fun same => absurd same shorter.ne⟩
  | name read => exact ⟨_, _, .name read, Nat.le_refl _, fun _ => rfl⟩
  | comment read => exact ⟨_, _, .comment read, Nat.le_refl _, fun _ => rfl⟩
  | newlines read => exact ⟨_, _, .newlines read, Nat.le_refl _, fun _ => rfl⟩
  | blanks read => exact ⟨_, _, .blanks read, Nat.le_refl _, fun _ => rfl⟩
  | @operator operator starts =>
    cases numeral : integer? characters with
    | some whole =>
      have shorter := operator_lt_integer? starts numeral
      cases pointed : real? characters with
      | none =>
        exact ⟨_, _, .integer pointed numeral, shorter.le, fun same => absurd same shorter.ne⟩
      | some length =>
        obtain ⟨_, found, longer⟩ := integer?_of_real? pointed
        obtain rfl := Option.some.inj (numeral.symm.trans found)
        have least := shorter.trans longer
        exact ⟨_, _, .real pointed, least.le, fun same => absurd same least.ne⟩
    | none =>
      cases found : operator? characters with
      | none =>
        have missed := List.find?_eq_none.mp found operator (Operator.mem_trialOrder operator)
        contradiction
      | some longest =>
        obtain ⟨first, greatest⟩ := operator?_eq_some_iff.mp found
        refine ⟨_, _, .operator numeral found, greatest operator starts, fun same => ?_⟩
        rw [operator_unique starts first same]

/-- The first match is the only longest one among all that the patterns of the language allow. -/
theorem choose_iff_isLongest {rule : Rule} :
    Registry.choose Registry.language.rules characters = some (rule, length) ↔
      IsLongest Rule.defaults characters rule length := by
  rw [choose_eq_some_iff]
  have bounded {chosen other : Rule} {most size : Nat} (reads : Reads characters chosen most)
      (listed : other ∈ Rule.defaults) (admits : other.Admits characters size) :
      size ≤ most ∧ (size = most → other = chosen) := by
    obtain ⟨longest, tries, within⟩ := tries_of_admits listed admits
    obtain ⟨_, _, others, least, same⟩ := tries.le
    obtain ⟨rfl, rfl⟩ := reads.unique others
    exact ⟨within.trans least, fun equal => same (by omega)⟩
  constructor
  · intro reads
    obtain ⟨listed, admits⟩ := reads.admits
    exact ⟨listed, admits, fun other member size allowed => (bounded reads member allowed).1⟩
  · rintro ⟨listed, admits, longest⟩
    obtain ⟨_, tries, _⟩ := tries_of_admits listed admits
    obtain ⟨chosen, most, reads, _⟩ := tries.le
    obtain ⟨known, allowed⟩ := reads.admits
    obtain ⟨within, same⟩ := bounded reads listed admits
    have equal : length = most := Nat.le_antisymm within (longest chosen known most allowed)
    rwa [same equal, equal]

/-- No rule is chosen exactly when no pattern of the language allows a match. -/
theorem choose_eq_none_iff :
    Registry.choose Registry.language.rules characters = none ↔
      ∀ rule ∈ Rule.defaults, ∀ size, ¬rule.Admits characters size := by
  constructor
  · intro stuck rule listed size admits
    obtain ⟨_, tries, _⟩ := tries_of_admits listed admits
    obtain ⟨chosen, most, reads, _⟩ := tries.le
    rw [choose_eq_some_iff.mpr reads] at stuck
    contradiction
  · intro missed
    refine Option.eq_none_iff_forall_ne_some.mpr fun ⟨rule, length⟩ chosen => ?_
    obtain ⟨listed, admits⟩ := (choose_eq_some_iff.mp chosen).admits
    exact missed rule listed length admits

end Lexis

/-! ## The reference -/

/-- The scan of a reference that takes a longest match among those that the patterns of the rules
allow at every cursor, and reads it with a keyword table. -/
inductive LongestScans (rules : List Rule) (table : KeywordTable) : List Character → Position →
    (line : Int) → List Token → Option ScanError → Prop where
  | finished (position : Position) (line : Int) : LongestScans rules table [] position line [] none
  | illegal {character : Character} {rest : List Character} (position : Position) (line : Int)
      (stuck : ∀ rule ∈ rules, ∀ size, ¬rule.Admits (character :: rest) size) :
      LongestScans rules table (character :: rest) position line []
        (some (.illegalCharacter character.scalar line position))
  | skipped {taken rest : List Character} {rule : Rule} {position : Position} {line next : Int}
      {tokens : List Token} {error : Option ScanError}
      (longest : IsLongest rules (taken ++ rest) rule taken.length)
      (read : Piece.read ⟨rule, Text.ofCharacters taken, position⟩ table line = .skipped next)
      (later : LongestScans rules table rest (position.advance (Text.ofCharacters taken)) next
        tokens error) :
      LongestScans rules table (taken ++ rest) position line tokens error
  | token {taken rest : List Character} {rule : Rule} {position : Position} {line : Int}
      {token : Token} {tokens : List Token} {error : Option ScanError}
      (longest : IsLongest rules (taken ++ rest) rule taken.length)
      (read : Piece.read ⟨rule, Text.ofCharacters taken, position⟩ table line = .token token)
      (later : LongestScans rules table rest (position.advance (Text.ofCharacters taken)) line
        tokens error) :
      LongestScans rules table (taken ++ rest) position line (token :: tokens) error
  | failed {taken rest : List Character} {rule : Rule} {position : Position} {line : Int}
      {error : ScanError} (longest : IsLongest rules (taken ++ rest) rule taken.length)
      (read : Piece.read ⟨rule, Text.ofCharacters taken, position⟩ table line = .failed error) :
      LongestScans rules table (taken ++ rest) position line [] (some error)

namespace Scanner

open Lexis

variable {table : KeywordTable} {characters taken rest : List Character} {rule : Rule}
  {position : Position} {line : Int} {tokens : List Token} {error : Option ScanError}

/-- The scanner of the language takes the longest match. -/
theorem split?_iff_isLongest :
    (language table).registry.split? (taken ++ rest) = some (rule, taken, rest) ↔
      IsLongest Rule.defaults (taken ++ rest) rule taken.length := by
  rw [← choose_iff_isLongest, choose_eq_some_iff, reads_iff_takes]
  exact ⟨fun split => (split?_language_iff.mp split).2, split?_of_takes⟩

/-- The scanner of the language is stuck where no pattern allows a match. -/
theorem split?_eq_none_iff :
    (language table).registry.split? characters = none ↔
      ∀ rule ∈ Rule.defaults, ∀ size, ¬rule.Admits characters size := by
  rw [← choose_eq_none_iff]
  constructor
  · intro stuck
    refine Option.eq_none_iff_forall_ne_some.mpr fun ⟨rule, length⟩ chosen => ?_
    obtain ⟨listed, taken, rest, rfl, rfl, _⟩ := (choose_eq_some_iff.mp chosen).admits
    rw [split?_iff_isLongest.mpr (choose_iff_isLongest.mp chosen)] at stuck
    contradiction
  · intro none
    rw [Registry.split?]
    simp only [language, none]

/-- The reference and the scanner of the language agree from every cursor on. -/
theorem longestScans_iff :
    LongestScans Rule.defaults table characters position line tokens error ↔
      ∃ final, (language table).Scans characters position line tokens final error := by
  constructor
  · intro scans
    induction scans with
    | finished position line => exact ⟨line, .finished position line⟩
    | illegal position line stuck =>
      exact ⟨line, .illegal position line (split?_eq_none_iff.mpr stuck)⟩
    | skipped longest read later ih =>
      obtain ⟨final, scans⟩ := ih
      exact ⟨final, .skipped (split?_iff_isLongest.mpr longest) read scans⟩
    | token longest read later ih =>
      obtain ⟨final, scans⟩ := ih
      exact ⟨final, .token (split?_iff_isLongest.mpr longest) read scans⟩
    | @failed _ _ _ _ line _ longest read =>
      exact ⟨line, .failed (split?_iff_isLongest.mpr longest) read⟩
  · rintro ⟨final, scans⟩
    induction scans with
    | finished position line => exact .finished position line
    | illegal position line stuck => exact .illegal position line (split?_eq_none_iff.mp stuck)
    | skipped split read later ih =>
      obtain ⟨rfl, _, _⟩ := Registry.split?_eq_some_iff.mp split
      exact .skipped (split?_iff_isLongest.mp split) read ih
    | token split read later ih =>
      obtain ⟨rfl, _, _⟩ := Registry.split?_eq_some_iff.mp split
      exact .token (split?_iff_isLongest.mp split) read ih
    | failed split read =>
      obtain ⟨rfl, _, _⟩ := Registry.split?_eq_some_iff.mp split
      exact .failed (split?_iff_isLongest.mp split) read

/-- The outcome of a scan of the language is that of the reference. -/
theorem longestScans_iff_scanUntilFailure {source : Text} :
    LongestScans Rule.defaults table source.characters .start 1 tokens error ↔
      (language table).scanUntilFailure source = (tokens, error) := by
  rw [longestScans_iff]
  constructor
  · rintro ⟨final, scans⟩
    exact scans.eq.1
  · intro outcome
    have scans := language_scans table source
    rw [outcome] at scans
    exact ⟨_, scans⟩

end Scanner

/-- A longest match among those that the rules of a registry find, each tried alone. -/
structure IsLongestTrial (rules : List CheckedRule) (characters : List Character)
    (checked : CheckedRule) (length : Nat) : Prop where
  /-- The rule is one of the rules. -/
  listed : checked ∈ rules
  /-- The rule finds the match. -/
  matched : checked.matcher.attempt characters = .matched length
  /-- No rule finds a longer one. -/
  longest : ∀ other ∈ rules, ∀ size, other.matcher.attempt characters = .matched size →
    size ≤ length

/-- The chosen rule is one of the rules and finds its match. -/
theorem Registry.attempt_of_choose {rules : List CheckedRule} {characters : List Character}
    {rule : Rule} {length : Nat} (chosen : choose rules characters = some (rule, length)) :
    ∃ checked ∈ rules, checked.rule = rule ∧
      checked.matcher.attempt characters = .matched length := by
  induction rules with
  | nil => contradiction
  | cons checked rest ih =>
    rw [choose] at chosen
    split at chosen
    · simp only [Option.some.injEq, Prod.mk.injEq] at chosen
      obtain ⟨rfl, rfl⟩ := chosen
      exact ⟨checked, List.mem_cons_self, rfl, ‹_›⟩
    · obtain ⟨found, member, same, matched⟩ := ih chosen
      exact ⟨found, List.mem_cons_of_mem _ member, same, matched⟩
    · contradiction

/-- The first match is the only longest one among those that the rules of the language find, each
tried alone. -/
theorem Lexis.choose_iff_isLongestTrial {characters : List Character} {rule : Rule}
    {length : Nat} :
    Registry.choose Registry.language.rules characters = some (rule, length) ↔
      ∃ checked, checked.rule = rule ∧
        IsLongestTrial Registry.language.rules characters checked length := by
  have bounded {chosen : Rule} {most size : Nat} {checked : CheckedRule}
      (reads : Reads characters chosen most) (listed : checked ∈ Registry.language.rules)
      (matched : checked.matcher.attempt characters = .matched size) :
      size ≤ most ∧ (size = most → checked.rule = chosen) := by
    obtain ⟨_, _, others, least, same⟩ := (tries_of_attempt listed matched).le
    obtain ⟨rfl, rfl⟩ := reads.unique others
    exact ⟨least, same⟩
  constructor
  · intro chosen
    have reads := choose_eq_some_iff.mp chosen
    obtain ⟨checked, listed, same, matched⟩ := Registry.attempt_of_choose chosen
    exact ⟨checked, same, listed, matched,
      fun other member size found => (bounded reads member found).1⟩
  · rintro ⟨checked, rfl, listed, matched, longest⟩
    obtain ⟨chosen, most, reads, _⟩ := (tries_of_attempt listed matched).le
    obtain ⟨found, member, _, attempted⟩ :=
      Registry.attempt_of_choose (choose_eq_some_iff.mpr reads)
    obtain ⟨within, same⟩ := bounded reads listed matched
    have equal : length = most := Nat.le_antisymm within (longest found member most attempted)
    rwa [same equal, equal, choose_eq_some_iff]

/-- First match is longest match. At every cursor the rules of the language, tried in order,
choose the only rule whose match is longest, both among the matches that the rules find and among
all that their patterns allow, and none exactly when no pattern allows a match. A scan therefore
gives the tokens, or the error, of a reference that takes a longest match at every cursor. -/
theorem Scanner.first_match_longest {table : KeywordTable} {scanner : Scanner}
    (built : Scanner.build (some table) Rule.defaults = .ok scanner) :
    (∀ characters rule length,
      (Registry.choose scanner.registry.rules characters = some (rule, length) ↔
        IsLongest Rule.defaults characters rule length) ∧
      (Registry.choose scanner.registry.rules characters = some (rule, length) ↔
        ∃ checked, checked.rule = rule ∧
          IsLongestTrial scanner.registry.rules characters checked length)) ∧
    (∀ characters, Registry.choose scanner.registry.rules characters = none ↔
      ∀ rule ∈ Rule.defaults, ∀ size, ¬rule.Admits characters size) ∧
    ∀ source : Text,
      (∀ tokens, scanner.scan source = .ok tokens ↔
        LongestScans Rule.defaults table source.characters .start 1 tokens none) ∧
      ∀ error, scanner.scan source = .error error ↔
        ∃ tokens, LongestScans Rule.defaults table source.characters .start 1 tokens
          (some error) := by
  obtain ⟨words, same, rfl⟩ := language_of_built built
  obtain rfl := Option.some.inj same
  refine ⟨fun characters rule length => ⟨Lexis.choose_iff_isLongest,
    Lexis.choose_iff_isLongestTrial⟩, fun characters => Lexis.choose_eq_none_iff,
    fun source => ⟨fun tokens => ?_, fun error => ?_⟩⟩
  · rw [longestScans_iff_scanUntilFailure, scan_eq_ok_iff]
  · rw [scan_eq_error_iff]
    simp only [longestScans_iff_scanUntilFailure]
    constructor
    · exact fun failed => ⟨_, Prod.ext rfl failed⟩
    · rintro ⟨tokens, outcome⟩
      rw [outcome]

/-- A real numeral with a sign is longer than the integer and the operator that start it. -/
theorem Scanner.first_match_longest_real :
    Registry.choose (Scanner.language .empty).registry.rules (Text.characters ("-1.5" : String)) =
        some (Rule.realNumeral, 4) ∧
      IsLongest Rule.defaults (Text.characters ("-1.5" : String)) Rule.realNumeral 4 := by
  have chosen : Registry.choose (Scanner.language .empty).registry.rules
      (Text.characters ("-1.5" : String)) = some (Rule.realNumeral, 4) := by rfl
  exact ⟨chosen, ((first_match_longest (build_defaults .empty)).1 _ _ _).1.mp chosen⟩

end Aml
