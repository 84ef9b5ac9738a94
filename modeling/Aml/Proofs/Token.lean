import Mathlib
import Aml.Proofs.Scan.Spelling
import Aml.Proofs.Text.Graphic
import Aml.Token

/-!
# Texts of tokens

The text of a token is one line, unless its value is a string with a newline: names of kinds and
the texts of numbers are graphic (`Text.IsGraphic`), and quoting writes the newlines of a lexeme as
escapes (`Text.newline_notMem_quoted`). A string that is the value of a token of the language is a
part of its lexeme, so the token is shown on one line when its lexeme has no newline
(`Spelling.newline_notMem_render`).
-/
namespace Aml

open List (not_mem_append)
open Text (newline)

/-! ## Numbers -/

namespace Decimal

variable {digits : Text}

/-- A point among graphic bytes keeps them graphic. -/
theorem isGraphic_pointed (graphic : digits.IsGraphic) : (pointed digits).IsGraphic := by
  unfold pointed
  split
  · exact graphic
  · exact graphic
  · next first later _ =>
    have point : (Text.ofString ".").IsGraphic := by decide
    have lead : Text.IsGraphic [first] := graphic.of_subset (by simp)
    have others : Text.IsGraphic later := graphic.of_subset (List.subset_cons_self first later)
    exact (lead.append point).append others

/-- The notation with an exponent is graphic. -/
theorem isGraphic_scientific (graphic : digits.IsGraphic) (magnitude : Int) :
    (scientific digits magnitude).IsGraphic := by
  have power := Text.isGraphic_ofNat magnitude.natAbs
  have front := isGraphic_pointed graphic
  have mark : (Text.ofString "e").IsGraphic := by decide
  have sign : Text.IsGraphic
      (if magnitude < 0 then Text.ofString "-" else Text.ofString "+") := by
    split <;> decide
  have padding : Text.IsGraphic
      (if (Text.ofNat magnitude.natAbs).length < 2 then Text.ofString "0"
        else Text.ofString "") := by
    split <;> decide
  exact (((front.append mark).append sign).append padding).append power

/-- The plain notation is graphic. -/
theorem isGraphic_positional (graphic : digits.IsGraphic) (magnitude : Int) :
    (positional digits magnitude).IsGraphic := by
  have leading : (Text.ofString "0.").IsGraphic := by decide
  have point : (Text.ofString ".").IsGraphic := by decide
  have whole (count : Nat) : Text.IsGraphic (digits.take count) :=
    graphic.of_subset (List.take_subset count digits)
  have places (count : Nat) : Text.IsGraphic (digits.drop count) :=
    graphic.of_subset (List.drop_subset count digits)
  unfold positional
  dsimp only
  split
  · exact (leading.append (Text.isGraphic_zeros _)).append graphic
  · split
    · exact graphic.append (Text.isGraphic_zeros _)
    · exact ((whole _).append point).append (places _)

/-- Decimal numbers are graphic. -/
theorem isGraphic_render (decimal : Decimal) : decimal.render.IsGraphic := by
  have graphic := Text.isGraphic_ofNat decimal.digits
  unfold render
  dsimp only
  split
  · exact isGraphic_scientific graphic _
  · exact isGraphic_positional graphic _

end Decimal

/-- Numbers of double precision are graphic. -/
theorem Binary64.isGraphic_render (number : Binary64) : number.render.IsGraphic := by
  cases number with
  | finite negative significand exponent =>
    have sign : Text.IsGraphic (if negative then Text.ofString "-" else Text.ofString "") := by
      cases negative <;> decide
    have zero : (Text.ofString "0").IsGraphic := by decide
    unfold render
    dsimp only
    split
    · exact sign.append zero
    · exact sign.append (Decimal.isGraphic_render _)
  | infinite negative => cases negative <;> decide
  | nan => decide

/-! ## Quotations -/

/-- The letters that name control characters are no newlines. -/
theorem newline_notMem_controlLetter {character letter : Char}
    (named : controlLetter? character = some letter) : newline ∉ Text.ofChar letter := by
  unfold controlLetter? at named
  split at named <;> cases named <;> decide

/-- A character between quotes has no newline, not even the newline itself. -/
theorem newline_notMem_escaped (character : Char) : newline ∉ escaped '"' character := by
  by_cases ends : character = '\n'
  · rw [ends]
    decide +kernel
  · have plain : newline ∉ Text.ofChar character := mt Text.newline_mem_ofChar ends
    have slash : newline ∉ Text.ofString "\\" := by decide
    have two : newline ∉ Text.ofString "\\x" := by decide
    have four : newline ∉ Text.ofString "\\u" := by decide
    have eight : newline ∉ Text.ofString "\\U" := by decide
    have hex (width value : Nat) := Text.newline_notMem_ofHex width value
    unfold escaped
    dsimp only
    split
    · exact not_mem_append slash plain
    · split
      · exact plain
      · split
        · next letter named =>
          exact not_mem_append slash (newline_notMem_controlLetter named)
        · split
          · exact not_mem_append two (hex _ _)
          · split
            · exact not_mem_append four (hex _ _)
            · exact not_mem_append eight (hex _ _)

/-- A text is quoted without a newline. -/
theorem Text.newline_notMem_quoted (text : Text) : newline ∉ text.quoted := by
  have mark : newline ∉ Text.ofString "\"" := by decide
  refine not_mem_append (not_mem_append mark fun member => ?_) mark
  obtain ⟨character, _, shown⟩ := List.mem_flatMap.mp member
  unfold Character.escaped at shown
  split at shown
  · obtain marked | spelled := List.mem_append.mp shown
    · exact absurd marked (by decide)
    · obtain ⟨byte, _, digits⟩ := List.mem_flatMap.mp spelled
      exact newline_notMem_ofHex _ _ digits
  · exact newline_notMem_escaped _ shown

/-! ## Tokens -/

/-- Names of kinds are graphic. -/
theorem Kind.isGraphic_name (kind : Kind) : kind.name.IsGraphic := by
  cases kind with
  | reserved kind => cases kind <;> decide
  | operator kind => cases kind <;> decide
  | operand kind => cases kind <;> decide
  | undeclared index =>
    have opening : (Text.ofString "Kind(").IsGraphic := by decide
    have closing : (Text.ofString ")").IsGraphic := by decide
    exact (opening.append (Text.isGraphic_ofInt index)).append closing

/-- What a token shows as its value. -/
def Token.shownValue (token : Token) : Text :=
  match token.value with
  | some value => value.render
  | none => []

/-- The bytes of a name are graphic. -/
theorem Name.isGraphic_of_isName {text : Text} (shaped : Name.isName text) : text.IsGraphic := by
  obtain ⟨first, parts, rfl, letter, all⟩ := Name.isName_iff.mp shaped
  refine Text.isGraphic_iff.mpr (List.forall_mem_cons.mpr ⟨by omega, fun byte member => ?_⟩)
  have bounds := Name.isPart_iff.mp (all byte member)
  omega

/-- The bytes of digits are graphic. -/
theorem Numeral.IsNumeral.isGraphic {digits : Text} (shaped : Numeral.IsNumeral digits) :
    digits.IsGraphic := by
  refine Text.isGraphic_iff.mpr fun byte member => ?_
  have bounds := Numeral.isDigit_iff.mp (shaped.numeric byte member)
  omega

/-- The token of a spelling that is no string is graphic, and so is its value. -/
theorem Spelling.isGraphic (spelling : Spelling) (table : KeywordTable) (line : Int)
    (position : Position) :
    (∃ body sound, spelling = .string body sound) ∨
      spelling.text.IsGraphic ∧ (spelling.token table line position).shownValue.IsGraphic := by
  have sign (negative : Bool) : (Numeral.sign negative).IsGraphic := by
    cases negative <;> decide
  have nothing : Text.IsGraphic [] := rfl
  cases spelling with
  | string body sound => exact .inl ⟨body, sound, rfl⟩
  | word text shaped =>
    have graphic := Name.isGraphic_of_isName shaped
    refine .inr ⟨graphic, ?_⟩
    rw [Token.shownValue, token, value]
    cases table.lookup? text with
    | none => exact graphic
    | some kind => exact nothing
  | operator symbol =>
    refine .inr ⟨?_, nothing⟩
    rw [text]
    cases symbol <;> decide
  | integer negative digits shaped least most =>
    exact .inr ⟨(sign negative).append shaped.isGraphic, Text.isGraphic_ofInt _⟩
  | real negative whole places shaped placed finite =>
    have point : Text.IsGraphic [Numeral.point] := by decide
    have around := shaped.isGraphic.append (point.append placed.isGraphic)
    refine .inr ⟨(sign negative).append around, ?_⟩
    rw [Token.shownValue, token, value]
    cases Binary64.nearest? negative (Numeral.value (whole ++ places)) (10 ^ places.length) with
    | none => exact nothing
    | some number => exact number.isGraphic_render

/-- Only the value of a token shows a newline. -/
theorem Token.newline_notMem_render {token : Token}
    (inline : ∀ value ∈ token.value, newline ∉ value.render) :
    newline ∉ token.render := by
  have opening : newline ∉ Text.ofString "(" := by decide
  have comma : newline ∉ Text.ofString ", " := by decide
  have closing : newline ∉ Text.ofString ")" := by decide
  have around {shown : Text} (clear : newline ∉ shown) :
      newline ∉ token.kind.name ++ "(" ++ (token.lexeme.quoted ++ shown) ++ ")" :=
    not_mem_append (not_mem_append (not_mem_append token.kind.isGraphic_name.newline_notMem opening)
      (not_mem_append token.lexeme.newline_notMem_quoted clear)) closing
  unfold render
  cases held : token.value with
  | none => simpa using around List.not_mem_nil
  | some value => simpa using around (not_mem_append comma (inline value held))

/-- A token of the language is shown on one line when its lexeme has no newline. -/
theorem Spelling.newline_notMem_render {spelling : Spelling} (inline : newline ∉ spelling.text)
    (table : KeywordTable) (line : Int) (position : Position) :
    newline ∉ (spelling.token table line position).render := by
  refine Token.newline_notMem_render fun shown valued => ?_
  rw [token] at valued
  cases spelling with
  | word text shaped =>
    rw [value] at valued
    split at valued
    · contradiction
    · cases valued
      exact inline
  | string body sound =>
    cases valued
    rw [Spelling.text, List.mem_cons, List.mem_append, not_or, not_or] at inline
    exact inline.2.1
  | operator => cases valued
  | integer negative digits =>
    cases valued
    exact (Text.isGraphic_ofInt _).newline_notMem
  | real =>
    rw [value] at valued
    obtain ⟨number, _, rfl⟩ := Option.map_eq_some_iff.mp valued
    exact number.isGraphic_render.newline_notMem

end Aml
