import Aml.Keyword.LoadError
import Aml.Yaml.Document

/-!
# Configuration files

A configuration file is a YAML mapping with the fields `extends` and `keywords`, both of them
optional, the second a mapping of words to names of kinds. Every mismatch between the file and
this shape is collected, and a file with a mismatch has no configuration. Scalars are taken as
written, whatever their tag; null leaves a field as it is and drops a word. A merge key adds the
entries of other mappings, which do not replace entries that are written out.
-/
namespace Aml

/-- Something read from a node, with the mismatches met on the way. -/
structure Found (α : Type) where
  value : α
  mismatches : List Mismatch := []

namespace Config

open Yaml (Node Document Tag)

/-- The keys of a mapping that are written like an earlier one. -/
def repeatedKeys : List (Node × Node) → List Mismatch
  | [] => []
  | (key, _) :: rest =>
    (rest.filter fun entry => key.isLike entry.1).map
        (fun entry => .repeatedKey entry.1.line entry.1.label key.line)
      ++ repeatedKeys rest

/-- The string of a node, or nothing for null and for a node that is none. The outer value is
missing when a scalar contradicts its tag. -/
def string? (document : Document) (node : Node) : Option (Found (Option Text)) :=
  match document.resolve? node with
  | none => none
  | some (.scalar _ tag text) =>
    if !tag.accepts text then none
    else if tag = .null then some ⟨none, []⟩
    else some ⟨some text, []⟩
  | some (.sequence line tag _) => some ⟨none, [.wrongType line tag [] .string]⟩
  | some (.mapping line tag entries) =>
    match repeatedKeys entries with
    | [] => some ⟨none, [.wrongType line tag [] .string]⟩
    | mismatches => some ⟨none, mismatches⟩
  | some (.alias _ _ _) => none

/-- Whether a node is null. -/
def isNull (document : Document) (node : Node) : Bool :=
  match document.resolve? node with
  | some (.scalar _ .null _) => true
  | _ => false

/-- The value of the last merge key. -/
def merged? (entries : List (Node × Node)) : Option Node :=
  (entries.reverse.find? fun entry => entry.1.isMerge).map Prod.snd

/-- The keys of a mapping that merged entries do not replace. -/
def ownKeys (document : Document) (entries : List (Node × Node)) : List Text :=
  entries.filterMap fun entry =>
    match document.resolve? entry.1 with
    | some (.scalar _ tag text) => if tag.isTextual then some text else none
    | _ => none

/-- The mappings that a merge key adds; nothing else may stand there. -/
def mergedMappings? (document : Document) (node : Node) : Option (List Node) :=
  let mapping? (node : Node) : Option Node :=
    match document.resolve? node with
    | some (.mapping line tag entries) => some (.mapping line tag entries)
    | _ => none
  match node with
  | .sequence _ _ items => items.mapM mapping?
  | node => (mapping? node).map fun mapping => [mapping]

/-- Puts a word into words, in place of the one with its spelling. -/
def setWord (words : List (Text × Text)) (spelling name : Text) : List (Text × Text) :=
  if words.any fun word => word.1 = spelling then
    words.map fun word => if word.1 = spelling then (spelling, name) else word
  else words ++ [(spelling, name)]

/-- Words that have been read. -/
structure Words where
  words : List (Text × Text)
  /-- Whether the words were none before the mapping that is being read. -/
  fresh : Bool
  /-- The keys that merged entries do not replace, while entries are merged. -/
  taken : Option (List Text) := none
  mismatches : List Mismatch := []

/-- Adds one entry of a mapping to the words. -/
def addWord (document : Document) (words : Words) (entry : Node × Node) : Option Words :=
  if entry.1.isMerge then some words
  else
    match string? document entry.1 with
    | none => none
    | some ⟨none, mismatches⟩ =>
      some { words with mismatches := words.mismatches ++ mismatches }
    | some ⟨some spelling, _⟩ =>
      if words.taken.any fun taken => taken.contains spelling then some words
      else
        let words := { words with taken := words.taken.map (spelling :: ·) }
        match string? document entry.2 with
        | none => none
        | some ⟨some name, _⟩ => some { words with words := setWord words.words spelling name }
        | some ⟨none, mismatches⟩ =>
          let absent := words.fresh || !words.words.any fun word => word.1 = spelling
          if isNull document entry.2 && absent then
            some { words with words := setWord words.words spelling [] }
          else some { words with mismatches := words.mismatches ++ mismatches }

/-- Adds the entries of a mapping to the words, then those of the mappings it merges; `fuel` bounds
the depth of merging. -/
def addWords (document : Document) : (fuel : Nat) → List (Node × Node) → Words → Option Words
  | 0, _, _ => none
  | fuel + 1, entries, words =>
    match repeatedKeys entries with
    | mismatch :: mismatches =>
      some { words with mismatches := words.mismatches ++ mismatch :: mismatches }
    | [] => do
      let words ← entries.foldlM (addWord document) words
      match merged? entries with
      | none => some words
      | some node =>
        let mappings ← mergedMappings? document node
        let taken := words.taken.getD (ownKeys document entries)
        let merged ← mappings.foldlM
          (fun words mapping =>
            match mapping with
            | .mapping _ _ entries => addWords document fuel entries { words with fresh := false }
            | _ => none)
          { words with taken := some taken }
        some { merged with taken := if words.taken.isNone then none else merged.taken }

/-- The words of a node, added to the given ones; null stands for no words. -/
def words? (document : Document) (node : Node) (held : Option (List (Text × Text))) :
    Option (Found (Option (List (Text × Text)))) :=
  match document.resolve? node with
  | none => none
  | some (.scalar line tag text) =>
    if !tag.accepts text then none
    else if tag = .null then some ⟨none, []⟩
    else some ⟨held, [.wrongType line tag text .words]⟩
  | some (.sequence line tag _) => some ⟨held, [.wrongType line tag [] .words]⟩
  | some (.mapping _ _ entries) => do
    let words ← addWords document (document.size + 1) entries ⟨held.getD [], held.isNone, none, []⟩
    some ⟨some words.words, words.mismatches⟩
  | some (.alias _ _ _) => none

/-- The fields of a configuration. -/
inductive Field where
  | base
  | keywords
  deriving DecidableEq

/-- The field with a name. -/
def Field.ofName? (name : Text) : Option Field :=
  if name = Text.ofString "extends" then some .base
  else if name = Text.ofString "keywords" then some .keywords
  else none

/-- Fields that have been read. -/
structure Fields where
  base : Text := []
  keywords : Option (List (Text × Text)) := none
  /-- The fields that the mapping being read has set. -/
  set : List Field := []
  /-- The keys that merged entries do not replace, while entries are merged. -/
  taken : Option (List Text) := none
  mismatches : List Mismatch := []

/-- Sets a field from a node. -/
def setField (document : Document) (fields : Fields) (field : Field) (node : Node) :
    Option Fields :=
  match field with
  | .base => do
    let found ← string? document node
    some
      { fields with
        base := found.value.getD fields.base
        mismatches := fields.mismatches ++ found.mismatches }
  | .keywords => do
    let found ← words? document node fields.keywords
    some
      { fields with
        keywords := found.value
        mismatches := fields.mismatches ++ found.mismatches }

/-- Adds one entry of a mapping to the fields. -/
def addField (document : Document) (fields : Fields) (entry : Node × Node) : Option Fields :=
  if entry.1.isMerge then some fields
  else
    match string? document entry.1 with
    | none => none
    | some ⟨none, mismatches⟩ =>
      some { fields with mismatches := fields.mismatches ++ mismatches }
    | some ⟨some name, _⟩ =>
      let report (mismatch : Mismatch) : Fields :=
        { fields with
          taken := fields.taken.map (name :: ·)
          mismatches := fields.mismatches ++ [mismatch] }
      if fields.taken.any fun taken => taken.contains name then some fields
      else
        match Field.ofName? name with
        | none => some (report (.unknownField entry.1.line name))
        | some field =>
          if fields.set.contains field then some (report (.repeatedField entry.1.line name))
          else
            setField document
              { fields with set := field :: fields.set, taken := fields.taken.map (name :: ·) }
              field entry.2

/-- Adds the entries of a mapping to the fields, then those of the mappings it merges; `fuel`
bounds the depth of merging. -/
def addFields (document : Document) : (fuel : Nat) → List (Node × Node) → Fields → Option Fields
  | 0, _, _ => none
  | fuel + 1, entries, fields =>
    match repeatedKeys entries with
    | mismatch :: mismatches =>
      some { fields with mismatches := fields.mismatches ++ mismatch :: mismatches }
    | [] => do
      let fields ← entries.foldlM (addField document) { fields with set := [] }
      match merged? entries with
      | none => some fields
      | some node =>
        let mappings ← mergedMappings? document node
        let taken := fields.taken.getD (ownKeys document entries)
        let merged ← mappings.foldlM
          (fun fields mapping =>
            match mapping with
            | .mapping _ _ entries => addFields document fuel entries fields
            | _ => none)
          { fields with taken := some taken }
        some { merged with taken := if fields.taken.isNone then none else merged.taken }

/-- The fields of the root of a document; a null document sets none. -/
def fields? (document : Document) : Option Fields :=
  match document.root with
  | .scalar line tag text =>
    if !tag.accepts text then none
    else if tag = .null then some {}
    else some { mismatches := [.wrongType line tag text .config] }
  | .sequence line tag _ => some { mismatches := [.wrongType line tag [] .config] }
  | .mapping _ _ entries => addFields document (document.size + 1) entries {}
  | .alias _ _ _ => none

/-- The configuration that a text holds. -/
def ofText (text : Text) : Except LoadError Config :=
  match Yaml.Contents.ofText text with
  | .malformed => .error .malformed
  | .empty => .error .empty
  | .first document =>
    match fields? document with
    | none => .error .malformed
    | some fields =>
      if fields.mismatches.isEmpty then .ok ⟨fields.base, fields.keywords.getD []⟩
      else .error (.mismatched fields.mismatches)

end Config

/-- The keyword table that a text describes. -/
def KeywordTable.load (text : Text) : Except LoadError KeywordTable :=
  match Config.ofText text with
  | .error error => .error error
  | .ok config =>
    match config.table with
    | .ok table => .ok table
    | .error error => .error (.config error)

end Aml
