import Mathlib
import Aml.Editor.Session
import Aml.Proofs.Keyword.Table
import Aml.Proofs.Scan.RoundTrip

/-!
# Recognition of keywords

The shape that is asked of a keyword is the shape of the names that the language reads, and no rule
for another class takes a name. So a name by itself is scanned as one token (`Scanner.scan_name`),
and this token is reserved exactly when the name is in the table. Conversely a reserved token has
its lexeme from the table, whatever the source (`Scanner.Scans.lookup?_of_reserved`). The words an
editor is offered are the words of the table, in order, so each of them is read back as the keyword
it stands for.
-/
namespace Aml

/-- Only words of the table have reserved tokens. -/
theorem Spelling.lookup?_of_kind {table : KeywordTable} {spelling : Spelling} {kind : Reserved}
    (reserved : spelling.kind table = .reserved kind) :
    table.lookup? spelling.text = some kind := by
  cases spelling with
  | word text shaped =>
    rw [Spelling.kind] at reserved
    split at reserved
    · next found =>
      cases reserved
      exact found
    · contradiction
  | operator | integer | real | string => cases reserved

namespace Scanner

variable {table : KeywordTable}

/-- Every reserved token of a scan has its lexeme from the table. -/
theorem lookup?_of_reserved {source : Text} {token : Token} {kind : Reserved}
    (member : token ∈ ((language table).scanUntilFailure source).1)
    (reserved : token.kind = .reserved kind) : table.lookup? token.lexeme = some kind := by
  have spelled := (language_scans table source).exists_spelling
    (by rw [Text.ofCharacters_characters])
  obtain ⟨spelling, same⟩ := spelled token member
  rw [same] at reserved ⊢
  exact Spelling.lookup?_of_kind reserved

/-- A name by itself is scanned as one token. -/
theorem scan_name {word : Text} (shaped : Name.isName word) :
    (language table).scan word = .ok [(Spelling.word word shaped).token table 1 .start] := by
  have alone : IsSpacing [[]] [] := ⟨by simp [IsFiller.nil], by simp, .nil⟩
  have scanned := (scan_interleaved (build_defaults table) alone).1 [.word word shaped] rfl
  simpa [interleaved, tokensOf, Spelling.text] using scanned

end Scanner

/-- The token of a keyword that stands by itself. -/
def Reserved.token (kind : Reserved) (spelling : Text) : Token :=
  ⟨.reserved kind, spelling, none, 1, .start⟩

/-- A word of a well-formed table is offered with the name of its group. -/
theorem Session.completion_eq {session : Session} (formed : session.scanner.table.WellFormed)
    {spelling : Text} {kind : Reserved}
    (found : session.scanner.table.lookup? spelling = some kind) :
    session.completion spelling = ⟨spelling, some kind.heading⟩ := by
  have named : ¬kind.heading = "" := fun empty => kind.heading_ne_nil (by rw [empty]; rfl)
  have group := formed.group?_eq spelling
  rw [found, Option.map_some] at group
  rw [completion, group]
  simp only [Kind.name_group, if_neg named]

namespace KeywordTable

variable {table : KeywordTable}

/-- The spellings of a well-formed table are the words that it knows. -/
theorem WellFormed.mem_spellings_iff (formed : table.WellFormed) {word : Text} :
    word ∈ table.spellings ↔ ∃ kind, table.lookup? word = some kind := by
  rw [spellings, List.mem_map]
  constructor
  · rintro ⟨⟨spelling, kind, group⟩, held, rfl⟩
    obtain rfl : group = (Kind.reserved kind).group := formed.grouped _ held
    exact ⟨kind, formed.lookup?_eq_some_iff.mpr held⟩
  · rintro ⟨kind, found⟩
    exact ⟨_, formed.lookup?_eq_some_iff.mp found, rfl⟩

/-- A word of a well-formed table is read as its keyword. -/
theorem WellFormed.scan_word (formed : table.WellFormed) {word : Text} {kind : Reserved}
    (found : table.lookup? word = some kind) :
    (Scanner.language table).scan word = .ok [kind.token word] := by
  have shaped : Name.isName word := formed.named _ (formed.lookup?_eq_some_iff.mp found)
  rw [Scanner.scan_name shaped, Spelling.token, Spelling.kind, Spelling.value, found]
  rfl

/-- Tables and the rule for names fit each other, whichever way the table is made. A word is in the
table with a kind exactly when it is scanned as one token, with the word as its lexeme and reserved
of that kind, and this token has no value. No source has a reserved token for a word outside the
table. An editor is offered exactly the words of the table, strictly ascending in byte order, and
each is read back as the keyword it stands for. Each is offered with the group that the words of the
language give its kind, whose name is not empty. -/
theorem reserved_exactly (made : table.Made) :
    ∃ scanner, Scanner.build (some table) Rule.defaults = .ok scanner ∧
      (∀ word kind, table.lookup? word = some kind ↔
        ∃ token, scanner.scan word = .ok [token] ∧ token.lexeme = word ∧
          token.kind = .reserved kind) ∧
      (∀ word kind, table.lookup? word = some kind →
        scanner.scan word = .ok [kind.token word]) ∧
      (∀ source, ∀ token ∈ (scanner.scanUntilFailure source).1, ∀ kind,
        token.kind = .reserved kind → table.lookup? token.lexeme = some kind) ∧
      ∀ (session : Session) (listening : Bool), session.scanner = scanner →
        ∃ items, session.answer listening .completion = (session, .completions items, []) ∧
          (items.map Completion.label).Pairwise (· < ·) ∧
          (∀ word, word ∈ items.map Completion.label ↔ ∃ kind, table.lookup? word = some kind) ∧
          ∀ item ∈ items, ∃ kind, table.lookup? item.label = some kind ∧
            scanner.scan item.label = .ok [kind.token item.label] ∧
            item.detail = some (Text.ofString kind.heading) ∧ Text.ofString kind.heading ≠ [] ∧
            ∃ word ∈ Keyword.defaults, word.kind = kind ∧ word.group.name = kind.heading := by
  have formed := made.wellFormed
  refine ⟨_, Scanner.build_defaults table, fun word kind => ⟨fun found => ?_, ?_⟩,
    fun word kind => formed.scan_word,
    fun source token member kind reserved => Scanner.lookup?_of_reserved member reserved, ?_⟩
  · exact ⟨_, formed.scan_word found, rfl, rfl⟩
  · rintro ⟨token, scanned, rfl, reserved⟩
    refine @Scanner.lookup?_of_reserved _ token.lexeme _ _ ?_ reserved
    rw [Scanner.scan_eq_ok_iff.mp scanned]
    exact List.mem_singleton_self token
  · intro session listening same
    have shared : session.scanner.table = table := by rw [same]; rfl
    have labels : session.completions.map Completion.label = table.spellings := by
      simp [Session.completions, Session.completion, shared, Function.comp_def]
    refine ⟨session.completions, rfl, labels ▸ formed.ascending,
      fun word => labels ▸ formed.mem_spellings_iff, fun item member => ?_⟩
    rw [Session.completions, shared] at member
    obtain ⟨spelling, listed, rfl⟩ := List.mem_map.mp member
    obtain ⟨kind, found⟩ := formed.mem_spellings_iff.mp listed
    have offered := Session.completion_eq (shared ▸ formed) (shared ▸ found)
    rw [offered]
    exact ⟨kind, found, formed.scan_word found, rfl, kind.heading_ne_nil,
      Keyword.exists_default kind⟩

/-- A configuration that takes a word of the language for another kind. -/
theorem reserved_exactly_overlaid :
    KeywordTable.Made (KeywordTable.default.insert ⟨"once", .every, .statement⟩) ∧
      ∃ scanner, Scanner.build (some (KeywordTable.default.insert ⟨"once", .every, .statement⟩))
          Rule.defaults = .ok scanner ∧
        scanner.scan "once" = .ok [⟨.reserved .every, "once", none, 1, .start⟩] := by
  have described : Config.table ⟨Config.defaultName, [("once", "EVERY")]⟩ =
      .ok (KeywordTable.default.insert ⟨"once", .every, .statement⟩) := by rfl
  have made : KeywordTable.Made (KeywordTable.default.insert ⟨"once", .every, .statement⟩) :=
    .config described
  obtain ⟨scanner, built, _, reads, _⟩ := reserved_exactly made
  exact ⟨made, scanner, built, reads "once" .every (by rfl)⟩

end KeywordTable

end Aml
