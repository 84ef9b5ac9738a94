import Mathlib
import Aml.Proofs.Interactive
import Aml.Proofs.Kind
import Aml.Proofs.Text.Quote

/-!
# Texts tell their tokens

No name of a kind has a quote, so the first quote in the text of a token opens the quoted lexeme,
which ends where it is read to end. The text therefore tells the kind, the lexeme and what is shown
of the value (`Token.render_eq_iff`). A value is shown as its converter makes it. The converters of
the language show no newline of a lexeme without one (`Converter.keepsLine_of_language`); with such
converters the tokens of a line are shown without a newline, and the lines that the interactive
tokenizer prints for it are the texts of its tokens (`Interactive.lines_respond`).
-/
namespace Aml

open Text (newline)

/-! ## Texts of tokens -/

/-- Texts are taken apart at the first byte of a value in one way. -/
theorem Text.append_cons_inj {stop : UInt8} {left right behind rest : Text} (one : stop ∉ left)
    (other : stop ∉ right) (same : left ++ stop :: behind = right ++ stop :: rest) :
    left = right ∧ behind = rest := by
  have front {text : Text} (free : stop ∉ text) (rest : Text) :
      (text ++ stop :: rest).takeWhile (· != stop) = text := by
    rw [List.takeWhile_append_of_pos (by simpa [List.forall_mem_ne'] using free)]
    simp
  have fronts := congrArg (List.takeWhile (· != stop)) same
  rw [front one, front other] at fronts
  subst fronts
  exact ⟨rfl, (List.cons.inj (List.append_cancel_left same)).2⟩

namespace Token

variable {left right : Token}

/-- What stands behind the lexeme: a comma and what is shown of the value, if there is one. -/
def valuePart : Option Text → Text
  | some shown => ", " ++ shown
  | none => []

/-- What stands behind the lexeme tells what is shown of the value. -/
theorem valuePart_injective : Function.Injective valuePart := by
  intro left right same
  cases left with
  | none =>
    cases right with
    | none => rfl
    | some shown => cases same
  | some shown =>
    cases right with
    | none => cases same
    | some other => exact congrArg some (List.append_cancel_left same)

/-- The quoted lexeme stands in the text of a token between its kind and its value. -/
theorem render_eq (token : Token) :
    token.render = (token.kind.name ++ "(") ++ (token.lexeme.quoted ++
      (valuePart (token.value.map Value.render) ++ ")")) := by
  unfold render
  cases token.value <;> simp [valuePart]

/-- The text of a token tells its kind, its lexeme and what it shows of its value. -/
theorem render_eq_iff : left.render = right.render ↔
    left.kind = right.kind ∧ left.lexeme = right.lexeme ∧
      left.value.map Value.render = right.value.map Value.render := by
  constructor
  · intro same
    have unquoted (token : Token) : Quotation.mark ∉ token.kind.name ++ Text.ofString "(" :=
      List.not_mem_append token.kind.quote_notMem_name (by decide)
    rw [render_eq, render_eq, Quotation.quoted_append, Quotation.quoted_append] at same
    obtain ⟨names, behind⟩ := Text.append_cons_inj (unquoted left) (unquoted right) same
    have quotations := congrArg (Quotation.mark :: ·) behind
    rw [← Quotation.quoted_append, ← Quotation.quoted_append] at quotations
    obtain ⟨lexemes, values⟩ := Quotation.quoted_append_inj.mp quotations
    exact ⟨Kind.name_injective (List.append_cancel_right names), lexemes,
      valuePart_injective (List.append_cancel_right values)⟩
  · rintro ⟨kinds, lexemes, values⟩
    rw [render_eq, render_eq, kinds, lexemes, values]

end Token

/-! ## Values of tokens -/

/-- What is between quotes is a part of the text with the quotes. -/
theorem Converter.unquote_subset {lexeme contents : Text} (found : unquote lexeme = .ok contents) :
    contents ⊆ lexeme := by
  unfold unquote at found
  split at found
  · next first second rest =>
    dsimp only at found
    split at found
    · cases found
      exact List.subset_cons_of_subset first (List.dropLast_subset _)
    · contradiction
  · contradiction

/-- A converter makes no value that is shown with a newline of a lexeme without one. -/
def Converter.KeepsLine (converter : Converter) : Prop :=
  ∀ lexeme value, newline ∉ lexeme → converter.convert lexeme = .ok (some value) →
    newline ∉ value.render

/-- The converters of the language show parts of their lexemes, or numbers. -/
theorem Converter.keepsLine_of_language :
    ∀ converter ∈ language, converter.KeepsLine := by
  have strings : string.KeepsLine := fun lexeme value inline converted => by
    cases found : unquote lexeme with
    | error cause => simp [string, found, Except.map] at converted
    | ok contents =>
      obtain rfl : .string contents = value := by simpa [string, found, Except.map] using converted
      exact fun member => inline (unquote_subset found member)
  have reals : real.KeepsLine := fun lexeme value _ converted => by
    rw [real] at converted
    dsimp only at converted
    split at converted <;> cases converted
    exact (Binary64.isGraphic_render _).newline_notMem
  have integers : integer.KeepsLine := fun lexeme value _ converted => by
    rw [integer] at converted
    dsimp only at converted
    split at converted <;> cases converted
    exact (Text.isGraphic_ofInt _).newline_notMem
  have names : identity.KeepsLine := fun lexeme value inline converted => by
    cases converted
    exact inline
  simp [language, strings, reals, integers, names]

/-- A keyword has no value, and any other token keeps the one it has. -/
theorem KeywordTable.value_of_resolve {table : KeywordTable} {rule : Rule} {token : Token}
    {value : Value} (valued : (table.resolve rule token).value = some value) :
    token.value = some value := by
  unfold resolve at valued
  split at valued
  · split at valued
    · contradiction
    · exact valued
  · exact valued

/-- The value of a token is the one that the converter of its rule makes of its lexeme. -/
theorem Piece.converted_of_read {piece : Piece} {table : KeywordTable} {line : Int} {token : Token}
    (read : piece.read table line = .token token) {value : Value}
    (valued : token.value = some value) :
    ∃ converter ∈ piece.rule.converter, converter.convert piece.lexeme = .ok (some value) := by
  cases becomes_of_read read with
  | plain => cases KeywordTable.value_of_resolve valued
  | converted _ _ converts converted =>
    cases KeywordTable.value_of_resolve valued
    exact ⟨_, converts, converted⟩

/-! ## Lines of the interactive tokenizer -/

/-- The converters of the rules show no newline of a lexeme without one. -/
def Scanner.KeepsLines (scanner : Scanner) : Prop :=
  ∀ checked ∈ scanner.registry.rules, ∀ converter ∈ checked.rule.converter, converter.KeepsLine

/-- The rules of the language show no newline of a lexeme without one. -/
theorem Scanner.language_keepsLines (table : KeywordTable) : (language table).KeepsLines := by
  intro checked listed converter converts
  exact Converter.keepsLine_of_language converter (converter_mem_language listed converts)

/-- Without a newline among the characters, every token of a scan is shown on one line. -/
theorem Scanner.Scans.newline_notMem_render {scanner : Scanner} {characters : List Character}
    {position : Position} {line final : Int} {tokens : List Token} {error : Option ScanError}
    (scans : scanner.Scans characters position line tokens final error) (keeps : scanner.KeepsLines)
    (inline : newline ∉ Text.ofCharacters characters) :
    ∀ token ∈ tokens, newline ∉ token.render := by
  induction scans with
  | finished | illegal | failed => simp
  | @skipped characters taken rest rule position line next final tokens error split read later ih =>
    obtain ⟨rfl, _, _⟩ := Registry.split?_eq_some_iff.mp split
    rw [Text.ofCharacters_append, List.mem_append, not_or] at inline
    exact ih inline.2
  | @token characters taken rest rule position line final made tokens error split read later ih =>
    obtain ⟨rfl, _, _⟩ := Registry.split?_eq_some_iff.mp split
    rw [Text.ofCharacters_append, List.mem_append, not_or] at inline
    refine List.forall_mem_cons.mpr ⟨?_, ih inline.2⟩
    refine Token.newline_notMem_render fun value valued => ?_
    obtain ⟨converter, converts, converted⟩ := Piece.converted_of_read read valued
    obtain ⟨checked, listed, rfl⟩ := Registry.mem_of_split? split
    exact keeps checked listed converter converts _ value inline.1 converted

namespace Interactive

/-- The lines of a listing are the texts of the tokens. -/
theorem lines_listing {tokens : List Token} (inline : ∀ token ∈ tokens, newline ∉ token.render) :
    (listing tokens).lines = tokens.map Token.render ++ [[]] := by
  induction tokens with
  | nil => rfl
  | cons token rest ih =>
    obtain ⟨first, others⟩ := List.forall_mem_cons.mp inline
    rw [listing, List.flatMap_cons, List.append_assoc, List.singleton_append,
      Text.lines_cons first, ← listing, ih others, List.map_cons, List.cons_append]

/-- What is printed for a line without a newline that is scanned without an error are the texts of
its tokens, one on a line. -/
theorem lines_respond {scanner : Scanner} {line : Text} {tokens : List Token}
    (keeps : scanner.KeepsLines) (inline : newline ∉ line)
    (scanned : scanner.scan line = .ok tokens) (color : Bool) :
    (respond scanner color line).lines = tokens.map Token.render ++ [[]] := by
  have scans := scanner.scans line
  rw [Scanner.scan_eq_ok_iff.mp scanned] at scans
  rw [respond, scanned]
  refine lines_listing (scans.newline_notMem_render keeps ?_)
  rwa [Text.ofCharacters_characters]

end Interactive

/-- The text of a token is unambiguous. Quoting is a prefix code over all byte texts: what starts
with two quotations quotes the same text in both, and goes on alike. Two tokens have the same text
exactly when they have the same kind, the same bytes as their lexemes, and values that are shown
alike. The lines that the interactive tokenizer prints for a line that is scanned without an error
are the texts of its tokens, so each of them tells the kind and the bytes of its token. This holds
for whatever rules, as long as their converters show no newline of a lexeme without one, and the
converters of the language are like that. -/
theorem Token.render_unambiguous :
    (∀ left right behind other : Text,
      left.quoted ++ behind = right.quoted ++ other ↔ left = right ∧ behind = other) ∧
    (∀ left right : Token, left.render = right.render ↔
      left.kind = right.kind ∧ left.lexeme = right.lexeme ∧
        left.value.map Value.render = right.value.map Value.render) ∧
    (∀ converter ∈ Converter.language, converter.KeepsLine) ∧
    ∀ (scanner : Scanner) (color : Bool) (line : Text) (tokens : List Token), scanner.KeepsLines →
      newline ∉ line → scanner.scan line = .ok tokens →
        (Interactive.respond scanner color line).lines = tokens.map render ++ [[]] :=
  ⟨fun _ _ _ _ => Quotation.quoted_append_inj, fun _ _ => render_eq_iff,
    Converter.keepsLine_of_language,
    fun _ color _ _ keeps inline scanned => Interactive.lines_respond keeps inline scanned color⟩

/-- On a line with two strings, one of the character U+FFFD and one of a byte outside every
character, the tokens are listed with different texts. -/
theorem Token.render_unambiguous_replacement :
    ∃ first second : Token,
      (Scanner.language .empty).scan [34, 239, 191, 189, 34, 34, 255, 34] = .ok [first, second] ∧
      first.lexeme = [34, 239, 191, 189, 34] ∧ second.lexeme = [34, 255, 34] ∧
      first.render ≠ second.render ∧
      (Interactive.respond (Scanner.language .empty) false
        [34, 239, 191, 189, 34, 34, 255, 34]).lines = [first.render, second.render, []] := by
  have scanned : (Scanner.language .empty).scan [34, 239, 191, 189, 34, 34, 255, 34] =
      .ok [⟨.operand .string, [34, 239, 191, 189, 34], some (.string [239, 191, 189]), 1, .start⟩,
        ⟨.operand .string, [34, 255, 34], some (.string [255]), 1, ⟨1, 4, 5⟩⟩] := by rfl
  obtain ⟨_, told, _, listed⟩ := render_unambiguous
  refine ⟨_, _, scanned, rfl, rfl, fun same => ?_,
    listed _ _ _ _ (Scanner.language_keepsLines _) (by decide) scanned⟩
  exact absurd ((told _ _).mp same).2.1 (by decide)

end Aml
