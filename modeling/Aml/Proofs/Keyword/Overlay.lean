import Mathlib
import Aml.Proofs.Keyword.Recognition
import Aml.Proofs.Kind

/-!
# Configurations overlay tables

A configuration lays its words over the base table one after the other. A word that is laid over a
table is found for its own spelling and leaves all other spellings alone (`find?_insert`), and a
well-formed table is known by what it finds (`WellFormed.eq_of_find?`). So a configuration whose
spellings are distinct describes the same table in whatever order its words are taken
(`Config.table_eq_ok_iff_of_perm`), and every table can be written as a configuration again
(`Config.table_written`).
-/
namespace Aml

/-- The canonical name of a reserved kind finds this kind, and no other name does. -/
theorem Kind.ofName?_eq_reserved_iff {name : Text} {kind : Reserved} :
    ofName? name = some (.reserved kind) ↔ name = (Kind.reserved kind).name := by
  constructor
  · intro found
    have same := List.find?_some found
    exact (of_decide_eq_true same).symm
  · rintro rfl
    exact ofName?_name rfl

namespace KeywordTable

/-! ## Tables as maps -/

variable {table other : KeywordTable}

/-- The first word of a table answers for its spelling. -/
theorem find?_cons (first : Keyword) (rest : List Keyword) (spelling : Text) :
    (mk (first :: rest)).find? spelling =
      if first.spelling = spelling then some first else (mk rest).find? spelling := by
  by_cases asked : first.spelling = spelling
  · simp [find?, asked]
  · simp [find?, asked]

/-- A word that is put into a table answers for its spelling alone. -/
theorem find?_insert (table : KeywordTable) (word : Keyword) (spelling : Text) :
    (table.insert word).find? spelling =
      if word.spelling = spelling then some word else table.find? spelling := by
  obtain ⟨words⟩ := table
  induction words with
  | nil => exact find?_cons word [] spelling
  | cons first rest ih =>
    rw [insert, insertWord]
    split
    case isTrue same =>
      rw [find?_cons, find?_cons, ← same]
      split <;> rfl
    case isFalse differs =>
      split
      · exact find?_cons word (first :: rest) spelling
      · rw [find?_cons, find?_cons]
        change (if first.spelling = spelling then some first
          else (insert ⟨rest⟩ word).find? spelling) = _
        rw [ih]
        by_cases asked : word.spelling = spelling
        · rw [if_pos asked, if_pos asked, if_neg fun found => differs (asked.trans found.symm)]
        · rw [if_neg asked, if_neg asked]

/-- A word is added exactly when its spelling is a name and its kind reserved, in whatever group. -/
theorem add_eq_ok_iff {spelling : Text} {kind : Kind} {group : Group} :
    table.add spelling kind group = .ok other ↔
      Name.isName spelling ∧
        ∃ own, kind = .reserved own ∧ other = table.insert ⟨spelling, own, group⟩ := by
  by_cases shaped : Name.isName spelling
  · cases kind with
    | reserved own => simp [add, shaped, eq_comm]
    | operator | operand | undeclared => simp [add, shaped]
  · simp [add, shaped]

/-- A table with words put in one after the other. -/
def insertAll (table : KeywordTable) (words : List Keyword) : KeywordTable :=
  words.foldl insert table

/-- The first of several words is put in first. -/
theorem insertAll_cons (table : KeywordTable) (first : Keyword) (rest : List Keyword) :
    table.insertAll (first :: rest) = (table.insert first).insertAll rest := rfl

/-- Several words leave all spellings but theirs alone. -/
theorem find?_insertAll_of_notMem {words : List Keyword} {spelling : Text}
    (absent : spelling ∉ words.map Keyword.spelling) :
    (table.insertAll words).find? spelling = table.find? spelling := by
  induction words generalizing table with
  | nil => rfl
  | cons first rest ih =>
    rw [List.map_cons, List.mem_cons, not_or] at absent
    rw [insertAll_cons, ih absent.2, find?_insert, if_neg fun same => absent.1 same.symm]

/-- Each of several words with distinct spellings answers for its spelling. -/
theorem find?_insertAll_of_mem {words : List Keyword} {word : Keyword}
    (distinct : (words.map Keyword.spelling).Nodup) (member : word ∈ words) :
    (table.insertAll words).find? word.spelling = some word := by
  induction words generalizing table with
  | nil => contradiction
  | cons first rest ih =>
    rw [List.map_cons, List.nodup_cons] at distinct
    rw [insertAll_cons]
    rcases List.mem_cons.mp member with rfl | later
    · rw [find?_insertAll_of_notMem distinct.1, find?_insert, if_pos rfl]
    · exact ih distinct.2 later

/-- A table of words with distinct spellings finds just these words. -/
theorem find?_insertAll_empty_iff {words : List Keyword}
    (distinct : (words.map Keyword.spelling).Nodup) {spelling : Text} {word : Keyword} :
    (empty.insertAll words).find? spelling = some word ↔
      word ∈ words ∧ word.spelling = spelling := by
  constructor
  · intro found
    by_cases entered : spelling ∈ words.map Keyword.spelling
    · obtain ⟨entry, member, rfl⟩ := List.mem_map.mp entered
      rw [find?_insertAll_of_mem distinct member] at found
      obtain rfl := Option.some.inj found
      exact ⟨member, rfl⟩
    · rw [find?_insertAll_of_notMem entered] at found
      contradiction
  · rintro ⟨member, rfl⟩
    exact find?_insertAll_of_mem distinct member

namespace WellFormed

/-- Putting in names in the groups of their kinds keeps a table well-formed. -/
theorem insertAll {words : List Keyword} (formed : table.WellFormed)
    (named : ∀ word ∈ words, Name.isName word.spelling)
    (grouped : ∀ word ∈ words, word.group = (Kind.reserved word.kind).group) :
    (table.insertAll words).WellFormed := by
  induction words generalizing table with
  | nil => exact formed
  | cons first rest ih =>
    obtain ⟨own, later⟩ := List.forall_mem_cons.mp named
    obtain ⟨group, others⟩ := List.forall_mem_cons.mp grouped
    exact ih (formed.insert own group) later others

/-- The words of a well-formed table have distinct spellings. -/
theorem nodup_spellings (formed : table.WellFormed) : table.spellings.Nodup := by
  refine formed.ascending.imp fun less => ?_
  rintro rfl
  exact List.lt_irrefl _ less

/-- Well-formed tables that find the same words are the same. -/
theorem eq_of_find? (formed : table.WellFormed) (known : other.WellFormed)
    (alike : ∀ spelling, table.find? spelling = other.find? spelling) : table = other := by
  have members (word : Keyword) : word ∈ table.words ↔ word ∈ other.words := by
    have one := @formed.find?_eq_some_iff _ word.spelling word
    rw [alike, known.find?_eq_some_iff] at one
    simpa using one.symm
  have listed : table.words.Perm other.words :=
    (List.perm_ext_iff_of_nodup (List.Nodup.of_map _ formed.nodup_spellings)
      (List.Nodup.of_map _ known.nodup_spellings)).mpr members
  have ordered : table.words = other.words := by
    apply List.Perm.eq_of_pairwise _ (List.pairwise_map.mp formed.ascending)
      (List.pairwise_map.mp known.ascending) listed
    intro one another _ _ less greater
    exact absurd (List.lt_trans less greater) (List.lt_irrefl _)
  calc
    table = KeywordTable.mk table.words := rfl
    _ = KeywordTable.mk other.words := congrArg KeywordTable.mk ordered
    _ = other := rfl

end WellFormed

/-- The order in which words with distinct spellings are put into a table does not matter. -/
theorem insertAll_perm {words order : List Keyword} (formed : table.WellFormed)
    (listed : order.Perm words) (distinct : (words.map Keyword.spelling).Nodup)
    (named : ∀ word ∈ words, Name.isName word.spelling)
    (grouped : ∀ word ∈ words, word.group = (Kind.reserved word.kind).group) :
    table.insertAll order = table.insertAll words := by
  have spelled := listed.map Keyword.spelling
  have ordered : (table.insertAll order).WellFormed :=
    formed.insertAll (fun word member => named word (listed.mem_iff.mp member))
      fun word member => grouped word (listed.mem_iff.mp member)
  apply ordered.eq_of_find? (formed.insertAll named grouped)
  intro spelling
  by_cases entered : spelling ∈ words.map Keyword.spelling
  · obtain ⟨word, member, rfl⟩ := List.mem_map.mp entered
    rw [find?_insertAll_of_mem distinct member,
      find?_insertAll_of_mem (spelled.nodup_iff.mpr distinct) (listed.mem_iff.mpr member)]
  · have absent : spelling ∉ order.map Keyword.spelling :=
      fun member => entered (spelled.mem_iff.mp member)
    rw [find?_insertAll_of_notMem entered, find?_insertAll_of_notMem absent]

end KeywordTable

namespace Config

/-! ## Laying words over a table -/

/-- The word that an entry of a configuration writes: a name with the canonical name of a reserved
kind, in the group of this kind. -/
def word? (entry : Text × Text) : Option Keyword :=
  match Kind.ofName? entry.2 with
  | some (.reserved kind) => if Name.isName entry.1 then some (.ofKind entry.1 kind) else none
  | _ => none

/-- The entry that writes a word. -/
def written (word : Keyword) : Text × Text :=
  (word.spelling, (Kind.reserved word.kind).name)

/-- Exactly the names in the groups of their kinds are written, each by its own entry. -/
theorem word?_eq_some_iff {entry : Text × Text} {word : Keyword} :
    word? entry = some word ↔
      Name.isName word.spelling ∧ word.group = (Kind.reserved word.kind).group ∧
        entry = written word := by
  obtain ⟨spelling, name⟩ := entry
  obtain ⟨own, kind, group⟩ := word
  constructor
  · intro read
    unfold word? at read
    split at read
    case h_1 found named =>
      split at read
      case isTrue shaped =>
        obtain ⟨rfl, rfl, rfl⟩ := Keyword.mk.inj (Option.some.inj read)
        exact ⟨shaped, rfl, Prod.ext rfl (Kind.ofName?_eq_reserved_iff.mp named)⟩
      case isFalse => contradiction
    case h_2 => contradiction
  · rintro ⟨shaped, grouped, same⟩
    obtain ⟨rfl, rfl⟩ := Prod.mk.inj same
    obtain rfl : group = (Kind.reserved kind).group := grouped
    have named := Kind.ofName?_eq_reserved_iff.mpr (Eq.refl (Kind.reserved kind).name)
    simp only [word?, named]
    exact if_pos shaped

/-- An entry that names a reserved kind for a name writes the word of this kind. -/
theorem word?_name {spelling : Text} {kind : Reserved} (shaped : Name.isName spelling) :
    word? (spelling, (Kind.reserved kind).name) = some (.ofKind spelling kind) :=
  word?_eq_some_iff.mpr ⟨shaped, rfl, rfl⟩

variable {table grown : KeywordTable} {entries : List (Text × Text)}

/-- An entry that writes a word puts the word into the table. -/
theorem overlay_cons {entry : Text × Text} {word : Keyword} (read : word? entry = some word)
    (rest : List (Text × Text)) :
    overlay table (entry :: rest) = overlay (table.insert word) rest := by
  obtain ⟨shaped, grouped, rfl⟩ := word?_eq_some_iff.mp read
  have named := Kind.ofName?_eq_reserved_iff.mpr (Eq.refl (Kind.reserved word.kind).name)
  have added : table.add word.spelling (.reserved word.kind) (Kind.reserved word.kind).group =
      .ok (table.insert word) :=
    KeywordTable.add_eq_ok_iff.mpr ⟨shaped, word.kind, rfl, by rw [← grouped]⟩
  simp only [written, overlay, named, added]

/-- An entry that writes no word is refused. -/
theorem exists_word?_of_overlay {entry : Text × Text} {rest : List (Text × Text)}
    (laid : overlay table (entry :: rest) = .ok grown) : ∃ word, word? entry = some word := by
  rw [overlay] at laid
  split at laid
  case h_1 => contradiction
  case h_2 kind named =>
    split at laid
    case h_1 longer added =>
      obtain ⟨shaped, own, rfl, _⟩ := KeywordTable.add_eq_ok_iff.mp added
      have same : entry = (entry.1, (Kind.reserved own).name) :=
        Prod.ext rfl (Kind.ofName?_eq_reserved_iff.mp named)
      rw [same]
      exact ⟨_, word?_name shaped⟩
    case h_2 => contradiction

/-- Entries are laid over a table exactly when each of them writes a word, and then these words are
put into the table. -/
theorem overlay_eq_ok_iff :
    overlay table entries = .ok grown ↔
      (∀ entry ∈ entries, ∃ word, word? entry = some word) ∧
        grown = table.insertAll (entries.filterMap word?) := by
  induction entries generalizing table with
  | nil =>
    rw [overlay, Except.ok.injEq]
    simp [KeywordTable.insertAll, eq_comm]
  | cons entry rest ih =>
    constructor
    · intro laid
      obtain ⟨word, read⟩ := exists_word?_of_overlay laid
      rw [overlay_cons read, ih] at laid
      rw [List.filterMap_cons_some read, KeywordTable.insertAll_cons]
      exact ⟨List.forall_mem_cons.mpr ⟨⟨word, read⟩, laid.1⟩, laid.2⟩
    · rintro ⟨all, same⟩
      obtain ⟨⟨word, read⟩, later⟩ := List.forall_mem_cons.mp all
      rw [List.filterMap_cons_some read, KeywordTable.insertAll_cons] at same
      rw [overlay_cons read]
      exact ih.mpr ⟨later, same⟩

/-- The spellings of entries that all write words are those of the words. -/
theorem map_spelling_filterMap_word?
    (all : ∀ entry ∈ entries, ∃ word, word? entry = some word) :
    (entries.filterMap word?).map Keyword.spelling = entries.map Prod.fst := by
  induction entries with
  | nil => rfl
  | cons entry rest ih =>
    obtain ⟨⟨word, read⟩, later⟩ := List.forall_mem_cons.mp all
    obtain ⟨_, _, rfl⟩ := word?_eq_some_iff.mp read
    rw [List.filterMap_cons_some read, List.map_cons, List.map_cons, ih later]
    rfl

/-! ## The table of a configuration -/

/-- A configuration can be laid over its base: the base is known, there are words where there is no
base, and every entry is a name with the canonical name of a reserved kind. -/
structure IsSound (config : Config) : Prop where
  base : config.base = [] ∨ config.base = defaultName
  present : config.base = [] → config.keywords ≠ []
  entries : ∀ entry ∈ config.keywords,
    Name.isName entry.1 ∧ ∃ kind : Reserved, entry.2 = (Kind.reserved kind).name

/-- The table that a known base stands for. -/
def baseOf (base : Text) : KeywordTable :=
  if base = defaultName then .default else .empty

variable {config : Config}

/-- The tables of known bases are well-formed. -/
theorem wellFormed_baseOf (base : Text) : (baseOf base).WellFormed := by
  unfold baseOf
  split
  · exact .default
  · exact .empty

/-- The default table answers where it is the base, and nothing else does. -/
theorem lookup?_baseOf (base spelling : Text) :
    (baseOf base).lookup? spelling =
      if base = defaultName then KeywordTable.default.lookup? spelling else none := by
  unfold baseOf
  split <;> rfl

/-- A base is known when it is the default table or none. -/
theorem baseTable_eq_ok_iff :
    config.baseTable = .ok table ↔
      (config.base = [] ∨ config.base = defaultName) ∧ table = baseOf config.base := by
  unfold baseTable baseOf
  by_cases none : config.base = []
  · have other : config.base ≠ defaultName := by
      rw [none]
      decide
    rw [if_pos none, if_neg other, Except.ok.injEq]
    exact ⟨fun same => ⟨.inl none, same.symm⟩, fun known => known.2.symm⟩
  · by_cases named : config.base = defaultName
    · rw [if_neg none, if_pos named, if_pos named, Except.ok.injEq]
      exact ⟨fun same => ⟨.inr named, same.symm⟩, fun known => known.2.symm⟩
    · simp [none, named]

/-- An entry writes a word when it is a name with the canonical name of a reserved kind. -/
theorem exists_word?_iff {entry : Text × Text} :
    (∃ word, word? entry = some word) ↔
      Name.isName entry.1 ∧ ∃ kind : Reserved, entry.2 = (Kind.reserved kind).name := by
  constructor
  · rintro ⟨word, read⟩
    obtain ⟨shaped, _, rfl⟩ := word?_eq_some_iff.mp read
    exact ⟨shaped, word.kind, rfl⟩
  · obtain ⟨spelling, name⟩ := entry
    rintro ⟨shaped, kind, rfl⟩
    exact ⟨_, word?_name shaped⟩

/-- A configuration describes a table exactly when it is sound, and then its words are put into the
table of its base. -/
theorem table_eq_ok_iff :
    config.table = .ok table ↔
      config.IsSound ∧
        table = (baseOf config.base).insertAll (config.keywords.filterMap word?) := by
  constructor
  · intro described
    rw [Config.table] at described
    split at described
    case h_1 => contradiction
    case h_2 base chosen =>
      split at described
      case isTrue => contradiction
      case isFalse present =>
        obtain ⟨known, rfl⟩ := baseTable_eq_ok_iff.mp chosen
        obtain ⟨all, same⟩ := overlay_eq_ok_iff.mp described
        refine ⟨⟨known, fun none empty => present ?_, fun entry member => ?_⟩, same⟩
        · rw [none, empty]
          rfl
        · exact exists_word?_iff.mp (all entry member)
  · rintro ⟨sound, same⟩
    have chosen := baseTable_eq_ok_iff.mpr ⟨sound.base, rfl⟩
    have present : (config.keywords.isEmpty && config.base.isEmpty) = false := by
      rw [Bool.and_eq_false_iff, List.isEmpty_eq_false_iff, List.isEmpty_eq_false_iff]
      by_cases none : config.base = []
      · exact .inl (sound.present none)
      · exact .inr none
    have all : ∀ entry ∈ config.keywords, ∃ word, word? entry = some word :=
      fun entry member => exists_word?_iff.mpr (sound.entries entry member)
    rw [Config.table, chosen]
    simp only [present]
    exact overlay_eq_ok_iff.mpr ⟨all, same⟩

/-- The order of the entries does not decide whether a configuration is sound. -/
theorem IsSound.of_perm (sound : config.IsSound) {order : List (Text × Text)}
    (listed : order.Perm config.keywords) : IsSound ⟨config.base, order⟩ := by
  refine ⟨sound.base, fun none empty => ?_, fun entry member => ?_⟩
  · have nothing : order = [] := empty
    rw [nothing, List.nil_perm] at listed
    exact sound.present none listed
  · exact sound.entries entry (listed.mem_iff.mp member)

/-- The words of a sound configuration have the spellings of its entries. -/
theorem IsSound.map_spelling (sound : config.IsSound) :
    (config.keywords.filterMap word?).map Keyword.spelling = config.keywords.map Prod.fst :=
  map_spelling_filterMap_word? fun entry member => exists_word?_iff.mpr (sound.entries entry member)

/-- A configuration whose spellings are distinct describes one table, in whatever order its entries
are taken. -/
theorem table_eq_ok_iff_of_perm (distinct : (config.keywords.map Prod.fst).Nodup)
    {order : List (Text × Text)} (listed : order.Perm config.keywords) :
    Config.table ⟨config.base, order⟩ = .ok table ↔ config.table = .ok table := by
  have same (sound : config.IsSound) :
      (baseOf config.base).insertAll (order.filterMap word?) =
        (baseOf config.base).insertAll (config.keywords.filterMap word?) := by
    apply KeywordTable.insertAll_perm (wellFormed_baseOf config.base) (listed.filterMap word?)
    · rwa [sound.map_spelling]
    · intro word member
      obtain ⟨entry, _, read⟩ := List.mem_filterMap.mp member
      exact (word?_eq_some_iff.mp read).1
    · intro word member
      obtain ⟨entry, _, read⟩ := List.mem_filterMap.mp member
      exact (word?_eq_some_iff.mp read).2.1
  rw [table_eq_ok_iff, table_eq_ok_iff]
  constructor
  · rintro ⟨sound, rfl⟩
    have known : config.IsSound := sound.of_perm listed.symm
    exact ⟨known, same known⟩
  · rintro ⟨sound, rfl⟩
    exact ⟨sound.of_perm listed, (same sound).symm⟩

/-- What the table of a configuration holds. -/
structure Holds (config : Config) (table : KeywordTable) : Prop where
  /-- A spelling of the configuration stands for the kind that is named there. -/
  own (spelling name : Text) (entered : (spelling, name) ∈ config.keywords) :
    ∃ kind : Reserved, name = (Kind.reserved kind).name ∧ table.lookup? spelling = some kind
  /-- Every other spelling stands for what it stands for in the default table, if that is extended,
  and for nothing otherwise. -/
  others (spelling : Text) (absent : spelling ∉ config.keywords.map Prod.fst) :
    table.lookup? spelling =
      if config.base = defaultName then KeywordTable.default.lookup? spelling else none
  /-- The group of a spelling is named by the heading of its kind; nothing else has a group. -/
  heading (spelling : Text) :
    (table.group? spelling).map Group.name = (table.lookup? spelling).map Reserved.heading
  /-- A spelling is in the group of every word of the language for its kind. -/
  group (spelling : Text) (word : Keyword) (known : word ∈ Keyword.defaults)
    (found : table.lookup? spelling = some word.kind) : table.group? spelling = some word.group
  /-- The spellings are those of the configuration and those of the extended table. -/
  size : table.size = ((config.keywords.map Prod.fst).toFinset ∪
    if config.base = defaultName then KeywordTable.default.spellings.toFinset else ∅).card

/-- The entries of a sound configuration stand for the kinds that they name. -/
theorem lookup?_of_entered (sound : config.IsSound)
    (distinct : (config.keywords.map Prod.fst).Nodup) {spelling name : Text}
    (entered : (spelling, name) ∈ config.keywords) :
    ∃ kind : Reserved, name = (Kind.reserved kind).name ∧
      (table.insertAll (config.keywords.filterMap word?)).lookup? spelling = some kind := by
  obtain ⟨word, read⟩ := exists_word?_iff.mpr (sound.entries _ entered)
  obtain ⟨_, _, same⟩ := word?_eq_some_iff.mp read
  obtain ⟨rfl, rfl⟩ := Prod.mk.inj same
  have listed : word ∈ config.keywords.filterMap word? := List.mem_filterMap.mpr ⟨_, entered, read⟩
  have apart : ((config.keywords.filterMap word?).map Keyword.spelling).Nodup := by
    rwa [sound.map_spelling]
  have found := @KeywordTable.find?_insertAll_of_mem table _ _ apart listed
  exact ⟨word.kind, rfl, by rw [KeywordTable.lookup?, found, Option.map_some]⟩

/-- A table that a configuration with distinct spellings describes holds its words. -/
theorem holds_of_table (distinct : (config.keywords.map Prod.fst).Nodup)
    (described : config.table = .ok table) : config.Holds table := by
  have formed : table.WellFormed := .config described
  obtain ⟨sound, whole⟩ := table_eq_ok_iff.mp described
  have own (spelling name : Text) (entered : (spelling, name) ∈ config.keywords) :
      ∃ kind : Reserved, name = (Kind.reserved kind).name ∧
        table.lookup? spelling = some kind := by
    rw [whole]
    exact lookup?_of_entered sound distinct entered
  have others (spelling : Text) (absent : spelling ∉ config.keywords.map Prod.fst) :
      table.lookup? spelling =
        if config.base = defaultName then KeywordTable.default.lookup? spelling else none := by
    rw [whole, ← lookup?_baseOf, KeywordTable.lookup?, KeywordTable.lookup?,
      KeywordTable.find?_insertAll_of_notMem (by rwa [sound.map_spelling])]
  refine ⟨own, others, fun spelling => ?_, fun spelling word known found => ?_, ?_⟩
  · rw [formed.group?_eq, Option.map_map]
    exact congrArg (Option.map · _) (funext Kind.name_group)
  · rw [formed.group?_eq, found, Option.map_some, Keyword.group_of_default word known]
  · have members : table.spellings.toFinset = (config.keywords.map Prod.fst).toFinset ∪
        if config.base = defaultName then KeywordTable.default.spellings.toFinset else ∅ := by
      ext spelling
      rw [Finset.mem_union, List.mem_toFinset, List.mem_toFinset, formed.mem_spellings_iff]
      by_cases entered : spelling ∈ config.keywords.map Prod.fst
      · obtain ⟨⟨_, name⟩, member, rfl⟩ := List.mem_map.mp entered
        obtain ⟨kind, _, found⟩ := own _ name member
        exact iff_of_true ⟨kind, found⟩ (.inl entered)
      · rw [others spelling entered, or_iff_right entered]
        split
        · rw [List.mem_toFinset]
          exact KeywordTable.WellFormed.default.mem_spellings_iff.symm
        · simp
    rw [← members, List.toFinset_card_of_nodup formed.nodup_spellings, KeywordTable.spellings,
      List.length_map, KeywordTable.size]

/-- The entries that write names in the groups of their kinds are read back as these words. -/
theorem filterMap_word?_written {words : List Keyword}
    (named : ∀ word ∈ words, Name.isName word.spelling)
    (grouped : ∀ word ∈ words, word.group = (Kind.reserved word.kind).group) :
    (words.map written).filterMap word? = words := by
  have read : ∀ word ∈ words, word? (written word) = some word := fun word member =>
    word?_eq_some_iff.mpr ⟨named word member, grouped word member, rfl⟩
  rw [List.filterMap_map]
  calc
    words.filterMap (word? ∘ written) = words.filterMap some := List.filterMap_congr read
    _ = words := List.filterMap_some

/-- A table that has words is described by the configuration that names the kind of each of its
spellings. -/
theorem table_written (formed : table.WellFormed) (present : table.words ≠ []) :
    Config.table ⟨[], table.words.map written⟩ = .ok table := by
  refine table_eq_ok_iff.mpr ⟨⟨.inl rfl, fun _ empty => ?_, fun entry member => ?_⟩, ?_⟩
  · exact present (List.map_eq_nil_iff.mp empty)
  · obtain ⟨word, listed, rfl⟩ := List.mem_map.mp member
    exact ⟨formed.named word listed, word.kind, rfl⟩
  · have apart : (table.words.map Keyword.spelling).Nodup := formed.nodup_spellings
    have rebuilt : (KeywordTable.empty.insertAll table.words).WellFormed :=
      KeywordTable.WellFormed.empty.insertAll formed.named formed.grouped
    rw [filterMap_word?_written formed.named formed.grouped]
    refine formed.eq_of_find? rebuilt fun spelling => Option.ext fun word => ?_
    rw [formed.find?_eq_some_iff]
    exact (KeywordTable.find?_insertAll_empty_iff apart).symm

/-- A configuration is an overlay in which the order of its entries plays no part. It describes a
table exactly when its base is the default table or none, it has words if it has no base, and every
entry is a name with the canonical name of a reserved kind; in every order of the entries it
describes the same table, or none. This table holds the entries of the configuration and, for all
other spellings, what the base holds. Every table that is made and has words is described by the
configuration without a base that names the kind of each of its spellings, in every order. -/
theorem table_unordered (config : Config) (distinct : (config.keywords.map Prod.fst).Nodup) :
    ((∃ table, config.table = .ok table) ↔
      (config.base = [] ∨ config.base = defaultName) ∧
      (config.base = [] → config.keywords ≠ []) ∧
      ∀ entry ∈ config.keywords,
        Name.isName entry.1 ∧ ∃ kind : Reserved, entry.2 = (Kind.reserved kind).name) ∧
    (∀ order, order.Perm config.keywords → ∀ table,
      Config.table ⟨config.base, order⟩ = .ok table ↔ config.table = .ok table) ∧
    (∀ table, config.table = .ok table → config.Holds table) ∧
    ∀ table : KeywordTable, table.Made → table.words ≠ [] →
      ∀ order, order.Perm (table.words.map written) →
        ∃ rebuilt, Config.table ⟨[], order⟩ = .ok rebuilt ∧
          ∀ spelling, rebuilt.lookup? spelling = table.lookup? spelling ∧
            rebuilt.group? spelling = table.group? spelling := by
  refine ⟨?_, fun order listed table => table_eq_ok_iff_of_perm distinct listed,
    fun table => holds_of_table distinct, fun table made present order listed => ?_⟩
  · constructor
    · rintro ⟨table, described⟩
      obtain ⟨sound, _⟩ := table_eq_ok_iff.mp described
      exact ⟨sound.base, sound.present, sound.entries⟩
    · rintro ⟨base, present, entries⟩
      exact ⟨_, table_eq_ok_iff.mpr ⟨⟨base, present, entries⟩, rfl⟩⟩
  · have formed := made.wellFormed
    have apart : ((table.words.map written).map Prod.fst).Nodup := by
      rw [List.map_map]
      exact formed.nodup_spellings
    have same := @table_eq_ok_iff_of_perm table ⟨[], table.words.map written⟩ apart order listed
    exact ⟨table, same.mpr (table_written formed present), fun spelling => ⟨rfl, rfl⟩⟩

/-- A configuration that extends the default table by one spelling and takes another one for a kind
of a different group. -/
theorem table_unordered_overriding :
    ((Config.mk defaultName [("once", "PACKET"), ("pacchetto", "PACKET")]).keywords.map
        Prod.fst).Nodup ∧
      ∃ table, Config.table ⟨defaultName, [("pacchetto", "PACKET"), ("once", "PACKET")]⟩ =
          .ok table ∧
        table.lookup? "pacchetto" = some .packetType ∧ table.group? "once" = some .type ∧
        table.lookup? "in" = KeywordTable.default.lookup? "in" ∧ table.size = 33 := by
  have distinct : ((Config.mk defaultName
      [("once", "PACKET"), ("pacchetto", "PACKET")]).keywords.map Prod.fst).Nodup := by decide
  have swapped : ([("pacchetto", "PACKET"), ("once", "PACKET")] : List (Text × Text)).Perm
      (Config.mk defaultName [("once", "PACKET"), ("pacchetto", "PACKET")]).keywords :=
    List.Perm.swap _ _ _
  have described : Config.table ⟨defaultName, [("once", "PACKET"), ("pacchetto", "PACKET")]⟩ =
      .ok (KeywordTable.default.insertAll
        [⟨"once", .packetType, .type⟩, ⟨"pacchetto", .packetType, .type⟩]) := by rfl
  obtain ⟨_, unordered, holds, _⟩ := table_unordered _ distinct
  have kept := (holds _ described).others "in" (by decide)
  exact ⟨distinct, _, (unordered _ swapped _).mpr described, by rfl, by rfl, kept, by rfl⟩

end Config

end Aml
