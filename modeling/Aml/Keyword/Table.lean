import Aml.Kind
import Aml.Text.Quote

/-!
# Keyword tables

A keyword table maps spellings, exactly as written, to reserved kinds. Every spelling has the
shape of a name, since only names are looked up. The words are kept in strictly increasing byte
order, so equal tables have equal words. Each word is stored with its group. The words of the
language decide the group of a kind, which every word that is added later for the kind gets.
-/
namespace Aml

/-- The groups of words. -/
inductive Group where
  | type | primitive | statement | accessor | wellKnown
  /-- The group of kinds that no word of the language stands for; it has no name. -/
  | ungrouped
  deriving DecidableEq

/-- The name of a group. -/
def Group.name : Group → String
  | .type => "type"
  | .primitive => "primitive"
  | .statement => "statement"
  | .accessor => "accessor"
  | .wellKnown => "well-known"
  | .ungrouped => ""

namespace Name

/-- Whether a byte is an ASCII letter. -/
def isLetter (byte : UInt8) : Bool :=
  97 ≤ byte && byte ≤ 122 || 65 ≤ byte && byte ≤ 90

/-- Whether a byte may stand in a name after its first letter. -/
def isPart (byte : UInt8) : Bool :=
  isLetter byte || 48 ≤ byte && byte ≤ 57 || byte = 95

/-- Whether a text is a letter followed by letters, digits and underscores. -/
def isName : Text → Bool
  | [] => false
  | first :: rest => isLetter first && rest.all isPart

end Name

/-- Why a keyword is refused. -/
inductive KeywordError where
  | notName (spelling : Text)
  | notReserved (spelling : Text) (kind : Kind)
  deriving DecidableEq

/-- The message of a refused keyword. -/
def KeywordError.message : KeywordError → Text
  | .notName spelling => "keyword " ++ spelling.quoted ++ " is not a valid identifier"
  | .notReserved spelling kind =>
    "keyword " ++ spelling.quoted ++ " maps to " ++ kind.name ++ ", which is not a reserved kind"

/-- A spelling with the reserved kind it stands for, and the group it belongs to. -/
structure Keyword where
  spelling : Text
  kind : Reserved
  group : Group
  deriving DecidableEq

/-- The words of the language itself. -/
def Keyword.defaults : List Keyword :=
  [⟨"variable", .variableType, .type⟩, ⟨"packet", .packetType, .type⟩,
   ⟨"filter", .filterType, .type⟩, ⟨"list", .listType, .type⟩,
   ⟨"disableComponent", .disableComponent, .primitive⟩,
   ⟨"deceiveComponent", .deceiveComponent, .primitive⟩,
   ⟨"destroyComponent", .destroyComponent, .primitive⟩, ⟨"misplaceNode", .misplaceNode, .primitive⟩,
   ⟨"destroyNode", .destroyNode, .primitive⟩, ⟨"writeField", .writeField, .primitive⟩,
   ⟨"readField", .readField, .primitive⟩, ⟨"forwardPacket", .forwardPacket, .primitive⟩,
   ⟨"createPacket", .createPacket, .primitive⟩, ⟨"injectPacket", .injectPacket, .primitive⟩,
   ⟨"clonePacket", .clonePacket, .primitive⟩, ⟨"dropPacket", .dropPacket, .primitive⟩,
   ⟨"scenario", .scenario, .statement⟩, ⟨"packets", .packets, .statement⟩,
   ⟨"every", .every, .statement⟩, ⟨"nodes", .nodes, .statement⟩, ⟨"from", .fromNode, .statement⟩,
   ⟨"once", .once, .statement⟩, ⟨"matching", .matching, .accessor⟩, ⟨"for", .forAll, .accessor⟩,
   ⟨"in", .inList, .accessor⟩, ⟨"captured", .captured, .wellKnown⟩, ⟨"self", .self, .wellKnown⟩,
   ⟨"tx", .tx, .wellKnown⟩, ⟨"rx", .rx, .wellKnown⟩, ⟨"us", .microsecond, .wellKnown⟩,
   ⟨"ms", .millisecond, .wellKnown⟩, ⟨"s", .second, .wellKnown⟩]

/-- The group of a kind: that of the first word of the language for the kind. -/
def Kind.group (kind : Kind) : Group :=
  match Keyword.defaults.find? fun word => Kind.reserved word.kind = kind with
  | some word => word.group
  | none => .ungrouped

/-- A keyword table: words in strictly increasing byte order. -/
structure KeywordTable where
  words : List Keyword
  deriving DecidableEq

namespace KeywordTable

/-- The table without words. -/
def empty : KeywordTable := ⟨[]⟩

/-- Puts a word into increasing words, in place of the word with its spelling. -/
def insertWord (word : Keyword) : List Keyword → List Keyword
  | [] => [word]
  | other :: rest =>
    if word.spelling = other.spelling then word :: rest
    else if word.spelling.precedes other.spelling then word :: other :: rest
    else other :: insertWord word rest

/-- Adds a word without checking it. -/
def insert (table : KeywordTable) (word : Keyword) : KeywordTable :=
  ⟨insertWord word table.words⟩

/-- Adds a word if its spelling is a name and its kind reserved. -/
def add (table : KeywordTable) (spelling : Text) (kind : Kind) (group : Group) :
    Except KeywordError KeywordTable :=
  if !Name.isName spelling then .error (.notName spelling)
  else
    match kind with
    | .reserved kind => .ok (table.insert ⟨spelling, kind, group⟩)
    | _ => .error (.notReserved spelling kind)

/-- Adds words one after the other, each in the group of its kind. -/
def addAll (table : KeywordTable) : List (Text × Kind) → Except KeywordError KeywordTable
  | [] => .ok table
  | (spelling, kind) :: rest =>
    match table.add spelling kind kind.group with
    | .ok table => table.addAll rest
    | .error error => .error error

/-- The table of the given words. -/
def ofWords (words : List (Text × Kind)) : Except KeywordError KeywordTable :=
  empty.addAll words

/-- The table of the language itself. -/
def default : KeywordTable :=
  Keyword.defaults.foldl insert empty

/-- The word with a spelling. -/
def find? (table : KeywordTable) (spelling : Text) : Option Keyword :=
  table.words.find? fun word => word.spelling = spelling

/-- The reserved kind of a spelling. -/
def lookup? (table : KeywordTable) (spelling : Text) : Option Reserved :=
  (table.find? spelling).map Keyword.kind

/-- The group of a spelling. -/
def group? (table : KeywordTable) (spelling : Text) : Option Group :=
  (table.find? spelling).map Keyword.group

/-- The number of words. -/
def size (table : KeywordTable) : Nat :=
  table.words.length

/-- The spellings in increasing byte order. -/
def spellings (table : KeywordTable) : List Text :=
  table.words.map Keyword.spelling

end KeywordTable

end Aml
