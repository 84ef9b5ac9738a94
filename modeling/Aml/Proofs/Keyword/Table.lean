import Mathlib
import Aml.Keyword.Load

/-!
# Laws of keyword tables

A table is made from words, from a configuration, from a file, or is the table of the language
itself. Each of them adds words one after the other, and adding a word keeps the words in strictly
increasing byte order, in the shape of names and in the groups of their kinds
(`KeywordTable.WellFormed.insert`). So every table that is made is well-formed
(`KeywordTable.Made.wellFormed`), and a word is in such a table with a kind exactly when looking it
up finds that kind (`KeywordTable.WellFormed.lookup?_eq_some_iff`).

The reserved kinds are declared under headings: types, primitives, statements, accessors and
well-known values. The group of a kind is named by its heading (`Kind.name_group`), and the words of
the language are in the groups of their kinds (`Keyword.group_of_default`).
-/
namespace Aml

/-- To come first in byte order is to be less in the lexicographic order of byte strings. -/
theorem Text.precedes_iff_lt {left right : Text} : left.precedes right ↔ left < right := by
  induction left generalizing right with
  | nil => cases right <;> simp [precedes]
  | cons first lefts ih =>
    cases right with
    | nil => simp [precedes]
    | cons second rights =>
      rw [precedes, List.cons_lt_cons_iff]
      by_cases same : first = second
      · subst same
        simp [ih]
      · simp [same]

/-! ## Groups -/

/-- The heading under which a reserved kind is declared. -/
def Reserved.heading : Reserved → String
  | .variableType | .packetType | .filterType | .listType => "type"
  | .disableComponent | .deceiveComponent | .destroyComponent | .misplaceNode | .destroyNode
  | .writeField | .readField | .forwardPacket | .createPacket | .injectPacket | .clonePacket
  | .dropPacket => "primitive"
  | .scenario | .packets | .every | .nodes | .fromNode | .once => "statement"
  | .matching | .forAll | .inList => "accessor"
  | .captured | .self | .tx | .rx | .microsecond | .millisecond | .second => "well-known"

/-- The group of a reserved kind is named by its heading. -/
theorem Kind.name_group (kind : Reserved) : (Kind.reserved kind).group.name = kind.heading := by
  cases kind <;> rfl

/-- No heading is empty. -/
theorem Reserved.heading_ne_nil (kind : Reserved) : Text.ofString kind.heading ≠ [] := by
  cases kind <;> decide

/-- A word in the group of its kind. -/
def Keyword.ofKind (spelling : Text) (kind : Reserved) : Keyword :=
  ⟨spelling, kind, (Kind.reserved kind).group⟩

/-- Each word of the language is in the group of its kind. -/
theorem Keyword.group_of_default :
    ∀ word ∈ Keyword.defaults, word.group = (Kind.reserved word.kind).group := by
  decide

/-- Each reserved kind has a word of the language, which is in its group. -/
theorem Keyword.exists_default (kind : Reserved) :
    ∃ word ∈ Keyword.defaults, word.kind = kind ∧ word.group.name = kind.heading := by
  cases kind <;> decide

/-! ## Well-formed tables -/

namespace KeywordTable

/-- The words are names in strictly increasing byte order, each in the group of its kind. -/
structure WellFormed (table : KeywordTable) : Prop where
  ascending : table.spellings.Pairwise (· < ·)
  named : ∀ word ∈ table.words, Name.isName word.spelling
  grouped : ∀ word ∈ table.words, word.group = (Kind.reserved word.kind).group

/-- Putting in a word brings in no other one. -/
theorem mem_of_mem_insertWord {word other : Keyword} {words : List Keyword}
    (member : other ∈ insertWord word words) : other = word ∨ other ∈ words := by
  induction words with
  | nil => exact .inl (List.mem_singleton.mp member)
  | cons first rest ih =>
    rw [insertWord] at member
    split at member
    · exact (List.mem_cons.mp member).imp_right (List.mem_cons_of_mem first)
    · split at member
      · exact List.mem_cons.mp member
      · obtain rfl | later := List.mem_cons.mp member
        · exact .inr List.mem_cons_self
        · exact (ih later).imp_right (List.mem_cons_of_mem first)

/-- Putting in a word keeps the words in increasing order. -/
theorem ascending_insertWord (word : Keyword) {words : List Keyword}
    (ascending : (words.map Keyword.spelling).Pairwise (· < ·)) :
    ((insertWord word words).map Keyword.spelling).Pairwise (· < ·) := by
  induction words with
  | nil => exact List.pairwise_singleton ..
  | cons first rest ih =>
    rw [List.map_cons, List.pairwise_cons] at ascending
    obtain ⟨least, later⟩ := ascending
    rw [insertWord]
    split
    case isTrue same =>
      rw [List.map_cons, List.pairwise_cons, same]
      exact ⟨least, later⟩
    case isFalse differs =>
      split
      case isTrue before =>
        have less : word.spelling < first.spelling := Text.precedes_iff_lt.mp before
        rw [List.map_cons, List.map_cons, List.pairwise_cons, List.pairwise_cons]
        refine ⟨List.forall_mem_cons.mpr ⟨less, ?_⟩, least, later⟩
        exact fun spelling member => List.lt_trans less (least spelling member)
      case isFalse after =>
        -- Neither equal to the first word nor before it, the new word comes after it.
        have greater : first.spelling < word.spelling := by
          obtain less | same | greater := Std.lt_trichotomy word.spelling first.spelling
          · exact absurd (Text.precedes_iff_lt.mpr less) after
          · exact absurd same differs
          · exact greater
        rw [List.map_cons, List.pairwise_cons]
        refine ⟨List.forall_mem_map.mpr fun other member => ?_, ih later⟩
        obtain rfl | held := mem_of_mem_insertWord member
        · exact greater
        · exact least _ (List.mem_map_of_mem held)

namespace WellFormed

variable {table : KeywordTable}

/-- The table without words is well-formed. -/
theorem empty : KeywordTable.empty.WellFormed :=
  ⟨List.Pairwise.nil, by simp [KeywordTable.empty], by simp [KeywordTable.empty]⟩

/-- Adding a name in the group of its kind keeps a table well-formed. -/
theorem insert {word : Keyword} (formed : table.WellFormed) (name : Name.isName word.spelling)
    (group : word.group = (Kind.reserved word.kind).group) : (table.insert word).WellFormed := by
  refine ⟨ascending_insertWord word formed.ascending, fun other member => ?_,
    fun other member => ?_⟩
  · obtain rfl | held := mem_of_mem_insertWord member
    · exact name
    · exact formed.named other held
  · obtain rfl | held := mem_of_mem_insertWord member
    · exact group
    · exact formed.grouped other held

/-- Adding a checked word in the group of its kind keeps a table well-formed. -/
theorem add {spelling : Text} {kind : Kind} {grown : KeywordTable} (formed : table.WellFormed)
    (added : table.add spelling kind kind.group = .ok grown) : grown.WellFormed := by
  unfold KeywordTable.add at added
  split at added
  case isTrue => contradiction
  case isFalse named =>
    cases kind with
    | reserved kind =>
      cases added
      exact formed.insert (by simpa using named) rfl
    | operator | operand | undeclared => contradiction

/-- Adding checked words keeps a table well-formed. -/
theorem addAll {words : List (Text × Kind)} {grown : KeywordTable} (formed : table.WellFormed)
    (added : table.addAll words = .ok grown) : grown.WellFormed := by
  induction words generalizing table with
  | nil =>
    cases added
    exact formed
  | cons word rest ih =>
    rw [KeywordTable.addAll] at added
    split at added
    · next longer first => exact ih (formed.add first) added
    · contradiction

/-- Laying words over a table keeps it well-formed. -/
theorem overlay {words : List (Text × Text)} {grown : KeywordTable} (formed : table.WellFormed)
    (laid : Config.overlay table words = .ok grown) : grown.WellFormed := by
  induction words generalizing table with
  | nil =>
    cases laid
    exact formed
  | cons word rest ih =>
    rw [Config.overlay] at laid
    split at laid
    · contradiction
    · split at laid
      · next longer first => exact ih (formed.add first) laid
      · contradiction

/-- The words of the language are not checked when they are added, and are names all the same. -/
theorem default : KeywordTable.default.WellFormed := by
  have named : ∀ word ∈ Keyword.defaults, Name.isName word.spelling := by decide
  exact List.foldlRecOn Keyword.defaults _ empty fun _ formed word member =>
    formed.insert (named word member) (Keyword.group_of_default word member)

/-- A well-formed table has one word at most with a spelling. -/
theorem eq_of_spelling_eq (formed : table.WellFormed) {one other : Keyword}
    (held : one ∈ table.words) (kept : other ∈ table.words)
    (same : one.spelling = other.spelling) : one = other := by
  have distinct : table.spellings.Nodup := formed.ascending.imp fun less => by
    rintro rfl
    exact List.lt_irrefl _ less
  exact List.inj_on_of_nodup_map distinct held kept same

/-- A word is in a well-formed table exactly when it is the one that is found for its spelling. -/
theorem find?_eq_some_iff (formed : table.WellFormed) {spelling : Text} {word : Keyword} :
    table.find? spelling = some word ↔ word ∈ table.words ∧ word.spelling = spelling := by
  rw [find?]
  constructor
  · exact fun found => ⟨List.mem_of_find?_eq_some found, by simpa using List.find?_some found⟩
  · rintro ⟨member, rfl⟩
    cases found : table.words.find? fun other => other.spelling = word.spelling with
    | none => simpa using List.find?_eq_none.mp found _ member
    | some other =>
      have same : other.spelling = word.spelling := by simpa using List.find?_some found
      rw [formed.eq_of_spelling_eq (List.mem_of_find?_eq_some found) member same]

/-- A word is in a well-formed table exactly when looking it up finds its kind. -/
theorem lookup?_eq_some_iff (formed : table.WellFormed) {spelling : Text} {kind : Reserved} :
    table.lookup? spelling = some kind ↔ Keyword.ofKind spelling kind ∈ table.words := by
  rw [lookup?, Option.map_eq_some_iff]
  constructor
  · rintro ⟨word, found, rfl⟩
    obtain ⟨member, rfl⟩ := formed.find?_eq_some_iff.mp found
    rw [Keyword.ofKind, ← formed.grouped word member]
    exact member
  · exact fun member => ⟨_, formed.find?_eq_some_iff.mpr ⟨member, rfl⟩, rfl⟩

/-- The group of a word of a well-formed table is that of its kind. -/
theorem group?_eq (formed : table.WellFormed) (spelling : Text) :
    table.group? spelling =
      (table.lookup? spelling).map fun kind => (Kind.reserved kind).group := by
  rw [group?, lookup?, Option.map_map]
  cases found : table.find? spelling with
  | none => rfl
  | some word =>
    obtain ⟨member, _⟩ := formed.find?_eq_some_iff.mp found
    exact congrArg some (formed.grouped word member)

end WellFormed

/-- The ways to make a table. -/
inductive Made : KeywordTable → Prop where
  /-- From words with their kinds. -/
  | words {words : List (Text × Kind)} {table : KeywordTable} (made : ofWords words = .ok table) :
      Made table
  /-- From a configuration. -/
  | config {config : Config} {table : KeywordTable} (described : config.table = .ok table) :
      Made table
  /-- From the text of a configuration file. -/
  | file {text : Text} {table : KeywordTable} (loaded : load text = .ok table) : Made table
  /-- As the table of the language itself. -/
  | default : Made .default

/-- The table of a configuration is well-formed. -/
theorem WellFormed.config {config : Config} {table : KeywordTable}
    (described : config.table = .ok table) : table.WellFormed := by
  rw [Config.table] at described
  split at described
  · contradiction
  · next base chosen =>
    split at described
    · contradiction
    · refine WellFormed.overlay ?_ described
      rw [Config.baseTable] at chosen
      split at chosen
      · cases chosen
        exact .empty
      · split at chosen
        · cases chosen
          exact .default
        · contradiction

/-- Every table that is made is well-formed. -/
theorem Made.wellFormed {table : KeywordTable} (made : table.Made) : table.WellFormed := by
  cases made with
  | words made => exact WellFormed.empty.addAll made
  | config described => exact .config described
  | file loaded =>
    rw [load] at loaded
    split at loaded
    · contradiction
    · split at loaded
      · next described =>
        cases loaded
        exact .config described
      · contradiction
  | default => exact .default

end KeywordTable

end Aml
