import Mathlib
import Aml.Keyword.Load
import Aml.Proofs.Keyword.Overlay
import Aml.Proofs.Token
import Aml.Proofs.Yaml.Document
import Aml.Proofs.Yaml.Source

/-!
# Words of configuration files

A configuration can be written as a file with one line for each of its words (`Config.file`). The
lines are a YAML mapping of plain scalars (`Config.exists_document_file`), whose entries are added
one after the other. YAML reads three names as null, which drops the words with these spellings
(`Config.addWords_plain`), and all other words are in the table that is loaded
(`KeywordTable.load_file`).
-/
namespace Aml

/-! ## Names as plain scalars -/

namespace Yaml.Tag

/-- Every text can have the tag that it has without one of its own. -/
theorem accepts_ofPlain (text : Text) : accepts (ofPlain text) text = true := by
  unfold accepts
  cases ofPlain text <;> simp

/-- The words for null that are names. -/
def nullNames : List Text :=
  ["null", "Null", "NULL"]

variable {text : Text}

/-- A name is a word for null when it is one of three. -/
theorem isWordOf_nullWords_iff (named : Name.isName text) :
    isWordOf nullWords text ↔ text ∈ nullNames := by
  have unnamed (word : String) (other : Name.isName (Text.ofString word) = false) :
      Text.ofString word ≠ text := by
    rintro rfl
    rw [other] at named
    contradiction
  have empty := unnamed "" (by decide)
  have tilde := unnamed "~" (by decide)
  simp [isWordOf, nullWords, nullNames, empty, tilde, @eq_comm Text text]

/-- A name is null, a truth value or a string. -/
theorem ofPlain_of_isName (named : Name.isName text) :
    ofPlain text =
      if text ∈ nullNames then .null
      else if isWordOf booleanWords text then .boolean
      else .string := by
  have null := isWordOf_nullWords_iff named
  have number : isWordOf realWords text = false := by
    have unnamed : ∀ word ∈ realWords, Name.isName (Text.ofString word) = false := by decide
    rw [isWordOf, List.any_eq_false]
    intro word member same
    rw [← of_decide_eq_true same, unnamed word member] at named
    contradiction
  have merge : text ≠ Text.ofString "<<" := by
    rintro rfl
    exact absurd named (by decide)
  obtain ⟨first, parts, rfl, letter, _⟩ := Name.isName_iff.mp named
  have other (byte : UInt8) (small : byte.toNat < 65) : first ≠ byte := by
    rintro rfl
    omega
  have digit : ¬Numeral.isDigit first := fun digit => by
    have := Numeral.isDigit_iff.mp digit
    omega
  simp [ofPlain, null, number, merge, digit, other 43 (by decide), other 45 (by decide),
    other 46 (by decide)]

/-- A name is null when it is a word for null. -/
theorem ofPlain_eq_null_iff (named : Name.isName text) :
    ofPlain text = .null ↔ text ∈ nullNames := by
  rw [ofPlain_of_isName named]
  split
  case isTrue null => exact iff_of_true rfl null
  case isFalse other =>
    split
    · exact iff_of_false (by decide) other
    · exact iff_of_false (by decide) other

/-- A name is no merge key. -/
theorem ofPlain_ne_merge (named : Name.isName text) : ofPlain text ≠ .merge := by
  rw [ofPlain_of_isName named]
  split
  · decide
  · split <;> decide

end Yaml.Tag

open Yaml (Node Document Tag ArePlain)

namespace Config

variable {document : Document} {text : Text}

/-- A name is read as the string that is written, unless it is a word for null. -/
theorem string?_plain (line : Nat) (named : Name.isName text) :
    string? document (.scalar line (.ofPlain text) text) =
      some ⟨if text ∈ Tag.nullNames then none else some text, []⟩ := by
  rw [string?, Document.resolve?]
  · simp only [Tag.accepts_ofPlain, Tag.ofPlain_eq_null_iff named, Bool.not_true,
      Bool.false_eq_true, if_false]
    split <;> rfl
  · nofun

/-- A name merges no entries. -/
theorem isMerge_plain (line : Nat) (named : Name.isName text) :
    (Node.scalar line (.ofPlain text) text).isMerge = false := by
  unfold Node.isMerge
  split
  case h_1 same => exact absurd (Node.scalar.inj same).2.1 (Tag.ofPlain_ne_merge named)
  case h_2 => rfl

/-! ## Reading words -/

variable {entries : List (Text × Text)} {nodes : List (Node × Node)}

/-- Keys that are written alike have the same label. -/
theorem label_eq_of_isLike {line : Nat} {tag : Tag} {node : Node}
    (alike : (Node.scalar line tag text).isLike node = true) : node.label = text := by
  cases node with
  | scalar => exact (of_decide_eq_true alike).symm
  | _ => contradiction

/-- The labels of keys that are plain scalars are their texts. -/
theorem map_label_plain (plain : List.Forall₂ ArePlain entries nodes) :
    nodes.map (fun node => node.1.label) = entries.map Prod.fst := by
  induction plain with
  | nil => rfl
  | cons first _ ih =>
    obtain ⟨_, _, rfl⟩ := first
    rw [List.map_cons, List.map_cons, ih]
    rfl

/-- Plain scalars with distinct texts are no repeated keys. -/
theorem repeatedKeys_plain (plain : List.Forall₂ ArePlain entries nodes)
    (distinct : (entries.map Prod.fst).Nodup) : repeatedKeys nodes = [] := by
  induction plain with
  | nil => rfl
  | @cons entry node entries nodes first rest ih =>
    obtain ⟨line, _, rfl⟩ := first
    obtain ⟨absent, others⟩ := List.nodup_cons.mp distinct
    rw [repeatedKeys, ih others, List.append_nil, List.map_eq_nil_iff, List.filter_eq_nil_iff]
    intro later member alike
    rw [← map_label_plain rest] at absent
    exact absent (List.mem_map.mpr ⟨later, member, label_eq_of_isLike alike⟩)

/-- The entries that are left when the words for null are dropped. -/
def kept (entries : List (Text × Text)) : List (Text × Text) :=
  entries.filter fun entry => entry.1 ∉ Tag.nullNames

/-- An entry of two names, the second of which is not null. -/
structure IsNamed (entry : Text × Text) : Prop where
  spelling : Name.isName entry.1
  kind : Name.isName entry.2
  solid : entry.2 ∉ Tag.nullNames

/-- A new word is put after the others. -/
theorem setWord_of_notMem {words : List (Text × Text)} {spelling : Text}
    (fresh : spelling ∉ words.map Prod.fst) (name : Text) :
    setWord words spelling name = words ++ [(spelling, name)] := by
  rw [setWord, if_neg]
  simpa using fresh

/-- A new word is added unless it is null. -/
theorem addWord_plain {entry : Text × Text} {node : Node × Node} {words : List (Text × Text)}
    (plain : ArePlain entry node) (named : IsNamed entry)
    (fresh : entry.1 ∉ words.map Prod.fst) (first : Bool) :
    addWord document ⟨words, first, none, []⟩ node =
      some ⟨words ++ kept [entry], first, none, []⟩ := by
  obtain ⟨keyLine, valueLine, rfl⟩ := plain
  simp only [addWord, isMerge_plain _ named.spelling, string?_plain _ named.spelling,
    string?_plain _ named.kind, named.solid]
  by_cases null : entry.1 ∈ Tag.nullNames
  · simp [null, kept]
  · simp [null, kept, setWord_of_notMem fresh]

/-- New words are added one after the other. -/
theorem foldlM_addWord_plain {words : List (Text × Text)}
    (plain : List.Forall₂ ArePlain entries nodes)
    (named : ∀ entry ∈ entries, IsNamed entry)
    (distinct : (words.map Prod.fst ++ entries.map Prod.fst).Nodup) (first : Bool) :
    nodes.foldlM (addWord document) ⟨words, first, none, []⟩ =
      some ⟨words ++ kept entries, first, none, []⟩ := by
  induction plain generalizing words with
  | nil => simp [kept]
  | @cons entry node entries nodes head _ ih =>
    obtain ⟨own, others⟩ := List.forall_mem_cons.mp named
    rw [List.map_cons] at distinct
    have fresh : entry.1 ∉ words.map Prod.fst := fun member =>
      (List.nodup_append.mp distinct).2.2 _ member _ List.mem_cons_self rfl
    have remaining : ((words ++ kept [entry]).map Prod.fst ++ entries.map Prod.fst).Nodup := by
      have fewer : ((kept [entry]).map Prod.fst).Sublist [entry.1] :=
        List.filter_sublist.map Prod.fst
      rw [List.map_append, List.append_assoc]
      exact distinct.sublist ((fewer.append_right _).append_left _)
    have together : kept [entry] ++ kept entries = kept (entry :: entries) :=
      (List.filter_append [entry] entries).symm
    rw [List.foldlM_cons, addWord_plain head own fresh, Option.bind_eq_bind, Option.bind_some,
      ih others remaining, List.append_assoc, together]

/-- Entries of names merge no others. -/
theorem merged?_plain (plain : List.Forall₂ ArePlain entries nodes)
    (named : ∀ entry ∈ entries, IsNamed entry) :
    merged? nodes = none := by
  have unmerged : ∀ node ∈ nodes, node.1.isMerge = false := by
    induction plain with
    | nil => simp
    | cons first _ ih =>
      obtain ⟨line, _, rfl⟩ := first
      obtain ⟨own, others⟩ := List.forall_mem_cons.mp named
      exact List.forall_mem_cons.mpr ⟨isMerge_plain line own.spelling, ih others⟩
  have nothing : nodes.reverse.find? (fun node => node.1.isMerge) = none :=
    List.find?_eq_none.mpr fun node member => by
      rw [unmerged node (List.mem_reverse.mp member)]
      exact Bool.false_ne_true
  rw [merged?, nothing]
  rfl

/-- The words of a mapping of names are its entries without those that are dropped. -/
theorem addWords_plain (plain : List.Forall₂ ArePlain entries nodes)
    (named : ∀ entry ∈ entries, IsNamed entry)
    (distinct : (entries.map Prod.fst).Nodup) (fuel : Nat) (first : Bool) :
    addWords document (fuel + 1) nodes ⟨[], first, none, []⟩ =
      some ⟨kept entries, first, none, []⟩ := by
  have added := @foldlM_addWord_plain document entries nodes [] plain named distinct first
  rw [addWords, repeatedKeys_plain plain distinct]
  simp only [added, merged?_plain plain named, Option.bind_eq_bind, Option.bind_some,
    List.nil_append]

/-- A mapping of names is a value of the field for words. -/
theorem addField_plain (plain : List.Forall₂ ArePlain entries nodes)
    (named : ∀ entry ∈ entries, IsNamed entry)
    (distinct : (entries.map Prod.fst).Nodup) (line inner : Nat) :
    addField document {}
        (.scalar line (.ofPlain "keywords") "keywords", .mapping inner .mapping nodes) =
      some { keywords := some (kept entries), set := [.keywords] } := by
  have title : Name.isName (Text.ofString "keywords") := by decide
  have solid : Text.ofString "keywords" ∉ Tag.nullNames := by decide
  have field : Field.ofName? "keywords" = some .keywords := by decide
  have added := @addWords_plain document entries nodes plain named distinct document.size true
  have words : words? document (.mapping inner .mapping nodes) none =
      some ⟨some (kept entries), []⟩ := by
    simp [words?, Document.resolve?, added]
  simp [addField, isMerge_plain line title, string?_plain line title, solid, field, setField, words]

/-- The fields of a document with a mapping of names under the name of the field for words. -/
theorem fields?_plain {outer line inner : Nat}
    (root : document.root = .mapping outer .mapping
      [(.scalar line (.ofPlain "keywords") "keywords", .mapping inner .mapping nodes)])
    (plain : List.Forall₂ ArePlain entries nodes) (named : ∀ entry ∈ entries, IsNamed entry)
    (distinct : (entries.map Prod.fst).Nodup) :
    fields? document = some { keywords := some (kept entries), set := [.keywords] } := by
  have title : Name.isName (Text.ofString "keywords") := by decide
  have single : merged? [(Node.scalar line (.ofPlain "keywords") "keywords",
      .mapping inner .mapping nodes)] = none := by
    simp [merged?, isMerge_plain line title]
  have added := @addField_plain document entries nodes plain named distinct line inner
  simp [fields?, root, addFields, repeatedKeys, added, single]

/-! ## Writing words -/

/-- The line of a file for an entry. -/
def fileLine (entry : Text × Text) : Text :=
  "  " ++ entry.1 ++ ": " ++ entry.2 ++ "\n"

/-- The file of a configuration with the given entries and without a base table. -/
def file (entries : List (Text × Text)) : Text :=
  "keywords:\n" ++ entries.flatMap fileLine

end Config

namespace Name

open Yaml (charOf)

/-- The letters of names are letters of words. -/
theorem isAlpha_charOf {byte : UInt8} (letter : 97 ≤ byte.toNat ∧ byte.toNat ≤ 122 ∨
    65 ≤ byte.toNat ∧ byte.toNat ≤ 90) : (charOf byte).isAlpha = true := by
  have value : (charOf byte).val.toNat = byte.toNat := Yaml.toNat_charOf (by omega)
  simp [Char.isAlpha, Char.isUpper, Char.isLower, UInt32.le_iff_toNat_le, value]
  omega

/-- The parts of names are parts of words. -/
theorem isWord_charOf {byte : UInt8} (part : Name.isPart byte) : Yaml.isWord (charOf byte) := by
  have bounds := Name.isPart_iff.mp part
  have value : (charOf byte).val.toNat = byte.toNat := Yaml.toNat_charOf (by omega)
  have underscore : byte.toNat = 95 → charOf byte = '_' := fun same => by rw [charOf, same]
  rcases bounds with lower | upper | same | digit
  · simp [Yaml.isWord, Char.isAlphanum, isAlpha_charOf (.inl lower)]
  · simp [Yaml.isWord, Char.isAlphanum, isAlpha_charOf (.inr upper)]
  · simp [Yaml.isWord, underscore same]
  · simp [Yaml.isWord, Char.isAlphanum, Char.isDigit, UInt32.le_iff_toNat_le, value, digit]

/-- A letter may stand anywhere in a name. -/
theorem isPart_of_isName {text : Text} (named : Name.isName text) :
    ∀ byte ∈ text, Name.isPart byte := by
  obtain ⟨first, parts, rfl, letter, all⟩ := Name.isName_iff.mp named
  refine List.forall_mem_cons.mpr ⟨Name.isPart_iff.mpr ?_, all⟩
  omega

/-- The characters of a name are a word. -/
theorem isPlainWord {text : Text} (named : Name.isName text) :
    Yaml.IsPlainWord (text.map charOf) := by
  have parts := isPart_of_isName named
  obtain ⟨first, others, rfl, letter, _⟩ := Name.isName_iff.mp named
  refine ⟨fun character starts => ?_, by simp, List.forall_mem_map.mpr fun byte member =>
    isWord_charOf (parts byte member)⟩
  obtain rfl : charOf first = character := by simpa using starts
  exact isAlpha_charOf letter

/-- Names are printed. -/
theorem isPrinted {text : Text} (named : Name.isName text) :
    ∀ byte ∈ text, Yaml.IsPrinted byte := by
  intro byte member
  have bounds := Text.isGraphic_iff.mp (isGraphic_of_isName named) byte member
  rw [Yaml.isPrinted_iff]
  omega

/-- The characters of a name spell it again. -/
theorem textOf_map {text : Text} (named : Name.isName text) :
    Yaml.textOf (text.map charOf) = text :=
  Yaml.textOf_map fun byte member => (isPrinted named byte member).ascii

end Name

namespace Config

open Yaml (charOf)

/-- A file is printed. -/
theorem isPrinted_file {entries : List (Text × Text)} (named : ∀ entry ∈ entries, IsNamed entry) :
    ∀ byte ∈ file entries, Yaml.IsPrinted byte := by
  have title : ∀ byte ∈ Text.ofString "keywords:\n", Yaml.IsPrinted byte := by decide +kernel
  have indent : ∀ byte ∈ Text.ofString "  ", Yaml.IsPrinted byte := by decide +kernel
  have colon : ∀ byte ∈ Text.ofString ": ", Yaml.IsPrinted byte := by decide +kernel
  have newline : ∀ byte ∈ Text.ofString "\n", Yaml.IsPrinted byte := by decide +kernel
  refine List.forall_mem_append.mpr ⟨title, fun byte member => ?_⟩
  obtain ⟨entry, listed, written⟩ := List.mem_flatMap.mp member
  obtain ⟨spelled, kind, _⟩ := named entry listed
  simp only [fileLine, List.mem_append] at written
  rcases written with (((start | key) | between) | value) | last
  · exact indent byte start
  · exact Name.isPrinted spelled byte key
  · exact colon byte between
  · exact Name.isPrinted kind byte value
  · exact newline byte last

/-- The characters of an entry. -/
def characters (entry : Text × Text) : List Char × List Char :=
  (entry.1.map charOf, entry.2.map charOf)

/-- The characters of a file are those of a header and of lines for its entries. -/
theorem map_charOf_file (entries : List (Text × Text)) :
    (file entries).map charOf = (Text.ofString "keywords").map charOf ++ ':' :: '\n' ::
      (entries.map characters).flatMap (Yaml.Reader.line 2) := by
  have title : (Text.ofString "keywords:\n").map charOf =
      (Text.ofString "keywords").map charOf ++ [':', '\n'] := by decide
  have indent : (Text.ofString "  ").map charOf = List.replicate 2 ' ' := by decide
  have colon : (Text.ofString ": ").map charOf = [':', ' '] := by decide
  have newline : (Text.ofString "\n").map charOf = ['\n'] := by decide
  have line (entry : Text × Text) :
      (fileLine entry).map charOf = Yaml.Reader.line 2 (characters entry) := by
    simp only [fileLine, List.map_append, indent, colon, newline, Yaml.Reader.line, characters,
      List.append_assoc, List.cons_append, List.nil_append]
  rw [file, List.map_append, List.map_flatMap, title, List.flatMap_map, List.append_assoc]
  simp only [line, List.cons_append, List.nil_append]

/-- The characters of an entry spell it again. -/
theorem textsOf_characters {entry : Text × Text} (named : IsNamed entry) :
    Yaml.Reader.textsOf (characters entry) = entry :=
  Prod.ext (Name.textOf_map named.spelling) (Name.textOf_map named.kind)

/-- An entry of names is one of words, and its spelling may be short enough for a key. -/
theorem isEntry_characters {entry : Text × Text} (named : IsNamed entry)
    (short : entry.1.length ≤ 1024) : Yaml.Reader.IsEntry (characters entry) := by
  have fits : (entry.1.map charOf).length ≤ 1024 := by rwa [List.length_map]
  exact ⟨Name.isPlainWord named.spelling, fits, Name.isPlainWord named.kind⟩

/-- A file whose spellings are short enough for keys holds a document with its entries as words. -/
theorem exists_document_file {entries : List (Text × Text)}
    (named : ∀ entry ∈ entries, IsNamed entry) (short : ∀ entry ∈ entries, entry.1.length ≤ 1024)
    (present : entries ≠ []) :
    ∃ document outer line inner nodes, Yaml.Contents.ofText (file entries) = .first document ∧
      document.root = .mapping outer .mapping
        [(.scalar line (.ofPlain "keywords") "keywords", .mapping inner .mapping nodes)] ∧
      List.Forall₂ ArePlain entries nodes := by
  have title : Name.isName (Text.ofString "keywords") := by decide
  have texts : (entries.map characters).map Yaml.Reader.textsOf = entries := by
    rw [List.map_map]
    exact (List.map_congr_left fun entry member =>
      textsOf_characters (named entry member)).trans entries.map_id
  have sound : ∀ entry ∈ entries.map characters, Yaml.Reader.IsEntry entry :=
    List.forall_mem_map.mpr fun entry member =>
      isEntry_characters (named entry member) (short entry member)
  have fits : ((Text.ofString "keywords").map charOf).length ≤ 1024 := by decide
  have kinds := Yaml.kinds_tokens (Name.isPlainWord title) fits Nat.two_pos sound
    (mt List.map_eq_nil_iff.mp present)
  rw [texts, ← map_charOf_file, Name.textOf_map title] at kinds
  rw [Yaml.Contents.ofText, Yaml.source?_of_printed (isPrinted_file named)]
  exact Yaml.Parse.exists_document kinds

/-- The configuration that a file holds has the entries without those that are dropped. -/
theorem ofText_file {entries : List (Text × Text)}
    (named : ∀ entry ∈ entries, IsNamed entry) (short : ∀ entry ∈ entries, entry.1.length ≤ 1024)
    (distinct : (entries.map Prod.fst).Nodup) (present : entries ≠ []) :
    ofText (file entries) = .ok ⟨[], kept entries⟩ := by
  obtain ⟨document, _, _, _, nodes, held, root, plain⟩ := exists_document_file named short present
  simp [ofText, held, fields?_plain root plain named distinct]

end Config

namespace KeywordTable

/-- The table of names with distinct spellings has just these words, in order. -/
theorem words_insertAll_empty_perm {words : List Keyword}
    (named : ∀ word ∈ words, Name.isName word.spelling)
    (grouped : ∀ word ∈ words, word.group = (Kind.reserved word.kind).group)
    (distinct : (words.map Keyword.spelling).Nodup) : (empty.insertAll words).words.Perm words := by
  have formed : (empty.insertAll words).WellFormed := WellFormed.empty.insertAll named grouped
  apply (List.perm_ext_iff_of_nodup (List.Nodup.of_map _ formed.nodup_spellings)
    (List.Nodup.of_map _ distinct)).mpr
  intro word
  have found := @formed.find?_eq_some_iff _ word.spelling word
  rw [find?_insertAll_empty_iff distinct] at found
  simpa using found.symm

/-- The words of spellings with their kinds, each in the group of its kind. -/
def wordsOf (kinds : List (Text × Reserved)) : List Keyword :=
  kinds.map fun word => .ofKind word.1 word.2

/-- The words of spellings have these spellings. -/
theorem spellings_wordsOf (kinds : List (Text × Reserved)) :
    (wordsOf kinds).map Keyword.spelling = kinds.map Prod.fst := by
  rw [wordsOf, List.map_map]
  rfl

/-- The words of spellings are in the groups of their kinds. -/
theorem grouped_wordsOf (kinds : List (Text × Reserved)) :
    ∀ word ∈ wordsOf kinds, word.group = (Kind.reserved word.kind).group :=
  List.forall_mem_map.mpr fun _ _ => rfl

/-- A spelling is among words with the kind that is given for it. -/
theorem ofKind_mem_wordsOf_iff {kinds : List (Text × Reserved)} {spelling : Text}
    {kind : Reserved} :
    Keyword.ofKind spelling kind ∈ wordsOf kinds ↔ (spelling, kind) ∈ kinds := by
  simp [wordsOf, Keyword.ofKind]

end KeywordTable

namespace Config

/-- Words are entries of two names, of which the second is not null. -/
theorem isNamed_written {word : Keyword} (named : Name.isName word.spelling) :
    IsNamed (written word) := by
  have shaped (kind : Reserved) : Name.isName (Kind.reserved kind).name := by
    cases kind <;> decide
  have solid (kind : Reserved) : (Kind.reserved kind).name ∉ Tag.nullNames := by
    cases kind <;> decide
  exact ⟨named, shaped word.kind, solid word.kind⟩

/-- Words are dropped with their entries. -/
theorem kept_written (words : List Keyword) :
    kept (words.map written) =
      (words.filter fun word => word.spelling ∉ Tag.nullNames).map written := by
  rw [kept, List.filter_map]
  rfl

/-- The file of some words is loaded as the table of those that are not dropped, if any are left. -/
theorem load_file_written {words : List Keyword} (present : words ≠ [])
    (named : ∀ word ∈ words, Name.isName word.spelling)
    (grouped : ∀ word ∈ words, word.group = (Kind.reserved word.kind).group)
    (distinct : (words.map Keyword.spelling).Nodup)
    (short : ∀ word ∈ words, word.spelling.length ≤ 1024) {left : List Keyword}
    (others : (words.filter fun word => word.spelling ∉ Tag.nullNames) = left) :
    KeywordTable.load (file (words.map written)) =
      if left = [] then .error (.config .noKeywords)
      else .ok (KeywordTable.empty.insertAll left) := by
  have held : ofText (file (words.map written)) = .ok ⟨[], left.map written⟩ := by
    rw [ofText_file, kept_written, others]
    · exact List.forall_mem_map.mpr fun word member => isNamed_written (named word member)
    · exact List.forall_mem_map.mpr short
    · rwa [List.map_map]
    · exact mt List.map_eq_nil_iff.mp present
  by_cases nothing : left = []
  · rw [KeywordTable.load, held, nothing]
    rfl
  · have kept : ∀ word ∈ left, word ∈ words := by
      rw [← others]
      exact fun word => List.mem_of_mem_filter
    have read : (left.map written).filterMap word? = left :=
      filterMap_word?_written (fun word member => named word (kept word member))
        fun word member => grouped word (kept word member)
    have described : Config.table ⟨[], left.map written⟩ =
        .ok (KeywordTable.empty.insertAll left) := by
      refine table_eq_ok_iff.mpr ⟨⟨.inl rfl, fun _ => mt List.map_eq_nil_iff.mp nothing, ?_⟩, ?_⟩
      · exact List.forall_mem_map.mpr fun word member =>
          ⟨named word (kept word member), word.kind, rfl⟩
      · rw [read]
        rfl
    rw [KeywordTable.load, held, if_neg nothing]
    simp only [described]

end Config

namespace KeywordTable

open Config (file written)

/-- The file of names with distinct spellings, none of them too long for a key, and with a reserved
kind for each, is loaded unless all spellings are words for null. The table has just the words with
other spellings, each of which stands for its kind. -/
theorem load_file {kinds : List (Text × Reserved)} (present : kinds ≠ [])
    (named : ∀ word ∈ kinds, Name.isName word.1) (distinct : (kinds.map Prod.fst).Nodup)
    (short : ∀ word ∈ kinds, word.1.length ≤ 1024) :
    ((∀ word ∈ kinds, word.1 ∈ Tag.nullNames) →
      load (file ((wordsOf kinds).map written)) = .error (.config .noKeywords)) ∧
    ((∃ word ∈ kinds, word.1 ∉ Tag.nullNames) →
      ∃ table, load (file ((wordsOf kinds).map written)) = .ok table ∧
        table.words.Perm (wordsOf (kinds.filter fun word => word.1 ∉ Tag.nullNames)) ∧
        ∀ spelling kind, table.lookup? spelling = some kind ↔
          (spelling, kind) ∈ kinds ∧ spelling ∉ Tag.nullNames) := by
  let left := kinds.filter fun word => word.1 ∉ Tag.nullNames
  have filled : wordsOf kinds ≠ [] := mt List.map_eq_nil_iff.mp present
  have names : ∀ word ∈ wordsOf kinds, Name.isName word.spelling := List.forall_mem_map.mpr named
  have fits : ∀ word ∈ wordsOf kinds, word.spelling.length ≤ 1024 := List.forall_mem_map.mpr short
  have others : ((wordsOf kinds).filter fun word => word.spelling ∉ Tag.nullNames) =
      wordsOf left := by
    rw [wordsOf, List.filter_map]
    rfl
  have loaded := Config.load_file_written filled names (grouped_wordsOf kinds)
    (by rwa [spellings_wordsOf]) fits others
  constructor
  · intro null
    rw [loaded, if_pos]
    have nothing : left = [] := List.filter_eq_nil_iff.mpr (by simpa using null)
    rw [nothing]
    rfl
  · rintro ⟨word, member, solid⟩
    have some : wordsOf left ≠ [] := mt List.map_eq_nil_iff.mp
      (List.ne_nil_of_mem (List.mem_filter.mpr ⟨member, by simpa using solid⟩))
    have apart : ((wordsOf left).map Keyword.spelling).Nodup := by
      rw [spellings_wordsOf]
      exact distinct.sublist (List.filter_sublist.map Prod.fst)
    have known : ∀ word ∈ wordsOf left, Name.isName word.spelling :=
      List.forall_mem_map.mpr fun word member => named word (List.mem_of_mem_filter member)
    have formed : (empty.insertAll (wordsOf left)).WellFormed :=
      WellFormed.empty.insertAll known (grouped_wordsOf left)
    have listed := words_insertAll_empty_perm known (grouped_wordsOf left) apart
    rw [if_neg some] at loaded
    refine ⟨_, loaded, listed, fun spelling kind => ?_⟩
    rw [formed.lookup?_eq_some_iff, listed.mem_iff, ofKind_mem_wordsOf_iff, List.mem_filter]
    simp

/-- A file with a word that is kept after one that is dropped. -/
theorem load_file_partly :
    ∃ table, load "keywords:\n  null: PACKET\n  pacchetto: LIST\n" = .ok table ∧
      table.size = 1 ∧ table.lookup? "pacchetto" = some .listType ∧
        table.lookup? "null" = none := by
  let kinds : List (Text × Reserved) := [("null", .packetType), ("pacchetto", .listType)]
  have text : file ((wordsOf kinds).map written) =
      Text.ofString "keywords:\n  null: PACKET\n  pacchetto: LIST\n" := by decide
  have apart : (kinds.map Prod.fst).Nodup := by decide
  have loaded := load_file (List.cons_ne_nil _ _) (by decide) apart (by decide)
  obtain ⟨table, held, size, found⟩ := loaded.2 ⟨("pacchetto", .listType), by decide, by decide⟩
  rw [text] at held
  refine ⟨table, held, size.length_eq, (found _ _).mpr ⟨by decide, by decide⟩, ?_⟩
  rw [Option.eq_none_iff_forall_not_mem]
  exact fun kind known => ((found _ kind).mp known).2 (by decide)

/-- Not every word of a file reaches the table: one that is null is dropped without a fault, and a
spelling that is too long for a key spoils the file. -/
theorem load_file_lossy :
    (Name.isName "null" ∧ Name.isName "pacchetto" ∧
      (load (file ((wordsOf [("null", .packetType), ("pacchetto", .listType)]).map
        written))).toOption.map spellings = some [Text.ofString "pacchetto"]) ∧
    Name.isName (List.replicate 1025 97) ∧
      (load (file ((wordsOf [(List.replicate 1025 97, .packetType)]).map written))).isOk =
        false := by
  exact ⟨⟨by decide, by decide, by decide +kernel⟩, by decide +kernel, by decide +kernel⟩

end KeywordTable

end Aml
