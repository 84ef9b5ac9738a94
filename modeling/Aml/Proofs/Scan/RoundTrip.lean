import Mathlib
import Aml.Proofs.Scan.Spelling

/-!
# Printing and scanning

Spellings printed with gaps between them are scanned as one token each: no gap is lost on a
token, no token runs into its neighbour, and each token stands on the line that the newlines of
the gaps before it give. Since every token of a scan is the token of a spelling, the tokens of any
scan can be printed again with other gaps and scanned as the same tokens.
-/
namespace Aml

/-! ## Gaps -/

/-- Spaces, tabs, newlines and comments with the newline after them, in a row. -/
inductive IsFiller : Text → Prop where
  | nil : IsFiller []
  | blank {byte : UInt8} {rest : Text} (blank : byte = 32 ∨ byte = 9) (later : IsFiller rest) :
      IsFiller (byte :: rest)
  | newline {rest : Text} (later : IsFiller rest) : IsFiller (Text.newline :: rest)
  | comment {body rest : Text} (inline : Text.newline ∉ body) (later : IsFiller rest) :
      IsFiller (35 :: (body ++ Text.newline :: rest))

/-- A gap in front of nothing else, or one that is there, starts as gaps do. -/
theorem IsFiller.startsGap {gap rest : Text} (fills : IsFiller gap)
    (present : gap ≠ [] ∨ rest = []) : Lexis.StartsGap (gap ++ rest).characters := by
  have first {byte : UInt8} {later : Text} (known : byte = 32 ∨ byte = 9 ∨ byte = 10 ∨ byte = 35) :
      Lexis.StartsGap (Text.characters (byte :: later)) := by
    have ascii : byte.toNat < 0x80 := by
      obtain rfl | rfl | rfl | rfl := known <;> decide
    rw [Text.characters_cons_ascii ascii]
    rintro _ ⟨⟩
    rw [Character.ofByte_toNat ascii]
    obtain rfl | rfl | rfl | rfl := known <;> decide
  cases fills with
  | nil =>
    obtain absent | rfl := present
    · contradiction
    · simp [Lexis.StartsGap]
  | blank blank =>
    obtain rfl | rfl := blank
    · exact first (.inl rfl)
    · exact first (.inr (.inl rfl))
  | newline => exact first (.inr (.inr (.inl rfl)))
  | comment => exact first (.inr (.inr (.inr rfl)))

namespace Scanner

open Lexis

variable {table : KeywordTable} {position : Position} {line final : Int} {tokens : List Token}
  {error : Option ScanError}

/-- A comment is taken up to the newline after it. -/
theorem comment_takes {body : Text} (inline : Text.newline ∉ body) (rest : Text) :
    Takes Rule.comment (Character.ofByte 35 :: body.characters)
      (Text.characters (Text.newline :: rest)) := by
  refine .comment rfl (Text.isNewline_eq_false inline) ?_
  rw [Text.characters_cons_ascii (by decide), stops_cons]
  rfl

/-- A gap in front of a text is scanned over, and its newlines are counted. -/
theorem Scans.filler {gap rest : Text} (fills : IsFiller gap)
    (later : (language table).Scans rest.characters (position.advance gap) (line + gap.newlines)
      tokens final error) :
    (language table).Scans (gap ++ rest).characters position line tokens final error := by
  have ended {others : Text} {position : Position} {line : Int}
      (remaining : (language table).Scans (others ++ rest).characters
        (position.advance [Text.newline]) (line + Text.newlines [Text.newline]) tokens final
        error) :
      (language table).Scans (Text.characters (Text.newline :: (others ++ rest))) position line
        tokens final error := by
    have ascii : Text.newline.toNat < 0x80 := by decide
    have sound := Text.sound_of_mem_characters (Text.newline :: (others ++ rest))
    rw [Text.characters_cons_ascii ascii] at sound ⊢
    exact .cons_newline (by rfl) sound remaining
  induction fills generalizing position line with
  | nil => simpa using later
  | @blank byte others blank _ ih =>
    have ascii : byte.toNat < 0x80 := by
      obtain rfl | rfl := blank <;> decide
    have sound := Text.sound_of_mem_characters (byte :: (others ++ rest))
    rw [Text.characters_cons_ascii ascii] at sound
    rw [List.cons_append, Text.characters_cons_ascii ascii]
    have seam : Text.Separate [byte] others := .inl (by simpa using ascii)
    refine .cons_blank ?_ sound (ih ((regroup seam).mpr later))
    obtain rfl | rfl := blank <;> rfl
  | @newline others _ ih =>
    have seam : Text.Separate [Text.newline] others := .inl (by simp [Text.newline])
    exact ended (ih ((regroup seam).mpr later))
  | @comment body others inline _ ih =>
    have takes := comment_takes inline (others ++ rest)
    have split : Text.characters (35 :: (body ++ Text.newline :: others) ++ rest) =
        (Character.ofByte 35 :: body.characters) ++
          Text.characters (Text.newline :: (others ++ rest)) := by
      have seam : Text.Separate body (Text.newline :: (others ++ rest)) :=
        .inr (by simp [Text.isContinuation, Text.newline])
      rw [List.cons_append, List.append_assoc, Text.characters_cons_ascii (by decide),
        List.cons_append, List.cons_append, Text.characters_append seam]
    have sound := Text.sound_of_mem_characters (35 :: (body ++ Text.newline :: others) ++ rest)
    rw [split] at sound ⊢
    have first : Text.Separate (35 :: body) ([Text.newline] ++ others) :=
      .inr (by simp [Text.isContinuation, Text.newline])
    have second : Text.Separate [Text.newline] others := .inl (by simp [Text.newline])
    refine .skip takes rfl (List.forall_mem_append.mp sound).1 (ended (ih ?_))
    rw [Text.ofCharacters_cons, Text.ofCharacters_characters]
    exact (regroup second).mpr ((regroup first).mpr later)

end Scanner

/-! ## Printing -/

/-- Texts with a gap before each and one after the last. -/
def interleaved (gaps lexemes : List Text) (last : Text) : Text :=
  (List.zipWith (· ++ ·) gaps lexemes).flatten ++ last

/-- A gap and a text in front. -/
theorem interleaved_cons (gap lexeme : Text) (gaps lexemes : List Text) (last : Text) :
    interleaved (gap :: gaps) (lexeme :: lexemes) last =
      gap ++ (lexeme ++ interleaved gaps lexemes last) := by
  simp [interleaved]

/-- Gaps that may stand before texts and after the last one: between neighbours there is one. -/
structure IsSpacing (gaps : List Text) (last : Text) : Prop where
  /-- Every gap is one. -/
  fills : ∀ gap ∈ gaps, IsFiller gap
  /-- Only the first gap may be empty. -/
  separates : ∀ gap ∈ gaps.tail, gap ≠ []
  /-- The last gap is one. -/
  ends : IsFiller last

/-- What stands between the first text and the others is spaced as well. -/
theorem IsSpacing.tail {gap last : Text} {gaps : List Text}
    (spaced : IsSpacing (gap :: gaps) last) : IsSpacing gaps last :=
  ⟨(List.forall_mem_cons.mp spaced.fills).2,
    fun gap member => spaced.separates gap (List.mem_of_mem_tail member), spaced.ends⟩

/-- What follows the first text starts a gap. -/
theorem IsSpacing.startsGap {gap last : Text} {gaps lexemes : List Text}
    (spaced : IsSpacing (gap :: gaps) last) :
    Lexis.StartsGap (interleaved gaps lexemes last).characters := by
  have alone : Lexis.StartsGap last.characters := by
    have ends := @IsFiller.startsGap last [] spaced.ends (.inr rfl)
    rwa [List.append_nil] at ends
  cases gaps with
  | nil => simpa [interleaved] using alone
  | cons next later =>
    cases lexemes with
    | nil => simpa [interleaved] using alone
    | cons lexeme others =>
      rw [interleaved_cons]
      exact (spaced.fills next (by simp)).startsGap (.inl (spaced.separates next (by simp)))

/-- The tokens of spellings with a gap before each, from a line and a place on. -/
def tokensOf (table : KeywordTable) : (line : Int) → Position → (gaps : List Text) →
    List Spelling → List Token
  | line, position, gap :: gaps, spelling :: spellings =>
    let line := line + gap.newlines
    let position := position.advance gap
    spelling.token table line position ::
      tokensOf table line (position.advance spelling.text) gaps spellings
  | _, _, _, _ => []

/-- Spellings with gaps between them are scanned as one token each. -/
theorem Scanner.scans_interleaved {table : KeywordTable} {gaps : List Text} {last : Text}
    {spellings : List Spelling} (spaced : IsSpacing gaps last)
    (paired : gaps.length = spellings.length) (line : Int) (position : Position) :
    ∃ final, (language table).Scans
      (interleaved gaps (spellings.map Spelling.text) last).characters position line
      (tokensOf table line position gaps spellings) final none := by
  induction gaps generalizing spellings line position with
  | nil =>
    obtain rfl := List.length_eq_zero_iff.mp paired.symm
    have scans := @Scans.filler table position line _ [] none last [] spaced.ends
      (.finished _ _)
    exact ⟨_, by simpa [interleaved, tokensOf] using scans⟩
  | cons gap gaps ih =>
    cases spellings with
    | nil => contradiction
    | cons spelling spellings =>
      -- The rest of the text starts with a gap, so the spelling is taken whole.
      have takes := spelling.takes (@IsSpacing.startsGap _ _ _ (spellings.map Spelling.text) spaced)
      have seam := takes.separate (List.forall_mem_append.mpr
        ⟨Text.sound_of_mem_characters _, Text.sound_of_mem_characters _⟩)
      rw [Text.ofCharacters_characters, Text.ofCharacters_characters] at seam
      obtain ⟨final, scans⟩ := ih spaced.tail (Nat.succ.inj paired) (line + gap.newlines)
        ((position.advance gap).advance spelling.text)
      refine ⟨final, ?_⟩
      rw [List.map_cons, interleaved_cons, tokensOf]
      refine .filler (spaced.fills gap (by simp)) ?_
      rw [Text.characters_append seam]
      refine .token (split?_of_takes takes) ?_ ?_
      · rw [Text.ofCharacters_characters]
        exact spelling.read table _ _
      · rw [Text.ofCharacters_characters]
        exact scans

/-- What a token says apart from where it stands. -/
def Token.content (token : Token) : Kind × Text × Option Value :=
  (token.kind, token.lexeme, token.value)

/-- What a spelling says is what its token says. -/
def Spelling.content (table : KeywordTable) (spelling : Spelling) : Kind × Text × Option Value :=
  (spelling.kind table, spelling.text, spelling.value table)

/-- Every spelling gives one token, which says what it says. -/
theorem tokensOf_content {table : KeywordTable} {gaps : List Text} {spellings : List Spelling}
    (paired : gaps.length = spellings.length) (line : Int) (position : Position) :
    (tokensOf table line position gaps spellings).map Token.content =
      spellings.map (Spelling.content table) := by
  induction gaps generalizing spellings line position with
  | nil =>
    obtain rfl := List.length_eq_zero_iff.mp paired.symm
    rfl
  | cons gap gaps ih =>
    cases spellings with
    | nil => contradiction
    | cons spelling spellings =>
      rw [tokensOf, List.map_cons, List.map_cons, ih (Nat.succ.inj paired)]
      rfl

/-- The tokens of a scan of the language say what spellings say. -/
theorem Scanner.exists_spellings {table : KeywordTable} {source : Text} {tokens : List Token}
    (scanned : (language table).scan source = .ok tokens) :
    ∃ spellings : List Spelling,
      spellings.map (Spelling.content table) = tokens.map Token.content := by
  have scans := language_scans table source
  rw [scan_eq_ok_iff.mp scanned] at scans
  have spelled := scans.exists_spelling (by rw [Text.ofCharacters_characters])
  dsimp only at spelled
  clear scanned scans
  induction tokens with
  | nil => exact ⟨[], rfl⟩
  | cons token tokens ih =>
    obtain ⟨⟨spelling, same⟩, others⟩ := List.forall_mem_cons.mp spelled
    obtain ⟨spellings, later⟩ := ih others
    refine ⟨spelling :: spellings, ?_⟩
    rw [List.map_cons, List.map_cons, later, same]
    rfl

/-- Printing and scanning are inverse over the language. Spellings with gaps between them are
scanned without an error as one token each, in order, with the text, the kind and the value of
the spelling, on the line that the newlines of the gaps before it give. So the texts of the tokens
of any scan, with any gaps between them, are scanned as the same tokens again. -/
theorem Scanner.scan_interleaved {table : KeywordTable} {scanner : Scanner}
    (built : Scanner.build (some table) Rule.defaults = .ok scanner) {gaps : List Text}
    {last : Text} (spaced : IsSpacing gaps last) :
    (∀ spellings : List Spelling, gaps.length = spellings.length →
      scanner.scan (interleaved gaps (spellings.map Spelling.text) last) =
        .ok (tokensOf table 1 .start gaps spellings)) ∧
    ∀ source tokens, scanner.scan source = .ok tokens → gaps.length = tokens.length →
      ∃ again, scanner.scan (interleaved gaps (tokens.map Token.lexeme) last) = .ok again ∧
        again.map Token.content = tokens.map Token.content := by
  obtain ⟨words, same, rfl⟩ := language_of_built built
  obtain rfl := Option.some.inj same
  have inverse (spellings : List Spelling) (paired : gaps.length = spellings.length) :
      (language table).scan (interleaved gaps (spellings.map Spelling.text) last) =
        .ok (tokensOf table 1 .start gaps spellings) := by
    obtain ⟨final, scans⟩ := @scans_interleaved table _ _ _ spaced paired 1 .start
    exact scan_eq_ok_iff.mpr scans.eq.1
  refine ⟨inverse, fun source tokens scanned paired => ?_⟩
  obtain ⟨spellings, alike⟩ := exists_spellings scanned
  have texts : spellings.map Spelling.text = tokens.map Token.lexeme := by
    simpa [Spelling.content, Token.content, Function.comp_def] using
      congrArg (List.map fun content => content.2.1) alike
  have sized : gaps.length = spellings.length := by
    rw [paired, ← List.length_map Token.content, ← alike, List.length_map]
  refine ⟨_, texts ▸ inverse spellings sized, ?_⟩
  rw [tokensOf_content sized, alike]

/-- A name, a sum and a comment after it, on two lines. -/
theorem Scanner.scan_interleaved_sum :
    IsSpacing [[], [32], [35, 10]] [9] ∧
      (Scanner.language .empty).scan
        (interleaved [[], [32], [35, 10]] [[97], [43], [98]] [9]) =
        .ok [⟨.operand .identifier, [97], some (.string [97]), 1, ⟨1, 1, 0⟩⟩,
          ⟨.operator .add, [43], none, 1, ⟨1, 3, 2⟩⟩,
          ⟨.operand .identifier, [98], some (.string [98]), 2, ⟨2, 1, 5⟩⟩] := by
  have comment : IsFiller [35, 10] := @IsFiller.comment [] [] (by simp) .nil
  have spaced : IsSpacing [[], [32], [35, 10]] [9] := by
    refine ⟨?_, by simp, .blank (.inr rfl) .nil⟩
    simpa using ⟨IsFiller.nil, IsFiller.blank (.inl rfl) .nil, comment⟩
  refine ⟨spaced, ?_⟩
  exact (scan_interleaved (build_defaults .empty) spaced).1
    [.word [97] (by rfl), .operator .add, .word [98] (by rfl)] rfl

end Aml
