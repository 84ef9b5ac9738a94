import Aml.Yaml.Node
import Aml.Yaml.Source
import Aml.Yaml.Token.Reader

/-!
# Reading YAML documents

The tokens of a source are read as a tree by recursive descent: a node is an alias, or a scalar or
collection after an anchor and a tag. Where a key, a value or an item is missing, a null scalar
stands for it. Only the first document of a source is read, together with the token after it.
-/
namespace Aml.Yaml

/-- A document that has been read in part. -/
structure Parse where
  /-- The tokens still to be read. -/
  tokens : List Token
  /-- The tag handles with what they stand for. -/
  handles : List (Text × Text)
  /-- The names of anchors with their numbers, latest first. -/
  names : List (Text × Nat) := []
  /-- The anchored nodes that are complete. -/
  anchored : List (Nat × Node) := []

/-- What precedes the content of a node. -/
structure Properties where
  /-- The line on which the node starts. -/
  line : Nat
  anchor : Option Text := none
  tag : Option Text := none

namespace Properties

/-- The tag of a node whose own tag, if it has none, is the given one. -/
def tagOr (properties : Properties) (tag : Tag) : Tag :=
  match properties.tag with
  | none => tag
  | some text => if text = Text.ofString "!" then tag else .ofText text

/-- Whether neither an anchor nor a tag precedes the content. -/
def isEmpty (properties : Properties) : Bool :=
  properties.anchor.isNone && properties.tag.isNone

end Properties

namespace Parse

/-- The line of a mark, from 1. -/
def lineOf (mark : Mark) : Nat :=
  mark.line + 1

/-- The tag that a handle and a suffix write. -/
def tag? (parse : Parse) (handle suffix : Text) : Option Text :=
  if handle.isEmpty then some suffix
  else (parse.handles.lookup handle).map fun start => start ++ suffix

/-- Reads an anchor, if there is one. -/
def anchor (parse : Parse) : Option Text × Parse :=
  match parse.tokens with
  | ⟨.anchor name, _, _⟩ :: rest => (some name, { parse with tokens := rest })
  | _ => (none, parse)

/-- Reads a tag, if there is one; the inner value is missing when its handle is unknown. -/
def tag (parse : Parse) : Option (Option Text) × Parse :=
  match parse.tokens with
  | ⟨.tag handle suffix, _, _⟩ :: rest =>
    (some (parse.tag? handle suffix), { parse with tokens := rest })
  | _ => (none, parse)

/-- Reads an anchor and a tag in either order. -/
def properties? (parse : Parse) : Option (Properties × Parse) :=
  match parse.tokens with
  | [] => none
  | token :: _ =>
    let line := lineOf token.start
    let (anchor, parse) := parse.anchor
    let (tag, parse) := parse.tag
    let (late, parse) := if anchor.isNone && tag.isSome then parse.anchor else (anchor, parse)
    match tag with
    | none => some (⟨line, late, none⟩, parse)
    | some none => none
    | some (some tag) => some (⟨line, late, some tag⟩, parse)

/-- Gives an anchor a number. -/
def declare (parse : Parse) (anchor : Option Text) : Option Nat × Parse :=
  match anchor with
  | none => (none, parse)
  | some name =>
    let number := parse.names.length
    (some number, { parse with names := (name, number) :: parse.names })

/-- Keeps a complete node under its number. -/
def complete (parse : Parse) (number : Option Nat) (node : Node) : Node × Parse :=
  match number with
  | none => (node, parse)
  | some number => (node, { parse with anchored := (number, node) :: parse.anchored })

/-- Keeps a scalar under the number of its anchor. -/
def scalar (parse : Parse) (properties : Properties) (tag : Tag) (text : Text) : Node × Parse :=
  let (number, parse) := parse.declare properties.anchor
  parse.complete number (.scalar properties.line (properties.tagOr tag) text)

/-- The tag of a scalar without one of its own. -/
def scalarTag (style : Style) (text : Text) : Tag :=
  match style with
  | .plain => .ofPlain text
  | _ => .string

/-- Whether a token ends a key or a value in a block mapping. -/
def endsEntry : TokenKind → Bool
  | .key | .value | .blockEnd => true
  | _ => false

/-- Whether a token ends an item of a block sequence. -/
def endsItem : TokenKind → Bool
  | .blockEntry | .blockEnd => true
  | _ => false

/-- Whether a token ends an item of a sequence as deep as the mapping around it. -/
def endsOutdentedItem : TokenKind → Bool
  | .blockEntry | .key | .value | .blockEnd => true
  | _ => false

/-- Whether a token ends a key in brackets. -/
def endsFlowKey : TokenKind → Bool
  | .value | .flowEntry | .flowMappingEnd => true
  | _ => false

/-- Whether a token ends a value in brackets. -/
def endsFlowValue : TokenKind → Bool
  | .flowEntry | .flowMappingEnd => true
  | _ => false

/-- Whether a token ends a key of a pair in a sequence. -/
def endsPairKey : TokenKind → Bool
  | .value | .flowEntry | .flowSequenceEnd => true
  | _ => false

/-- Whether a token ends a value of a pair in a sequence. -/
def endsPairValue : TokenKind → Bool
  | .flowEntry | .flowSequenceEnd => true
  | _ => false

/-- Passes the comma before every entry but the first; nothing else may stand there. -/
def separator? (parse : Parse) (first : Bool) : Option Parse :=
  if first then some parse
  else
    match parse.tokens with
    | ⟨.flowEntry, _, _⟩ :: rest => some { parse with tokens := rest }
    | _ => none

mutual

/-- Reads a node; `block` allows block collections and `outdented` a block sequence that is not
indented. In all readers `fuel` bounds the number of steps. -/
def node (block outdented : Bool) : (fuel : Nat) → Parse → Option (Node × Parse)
  | 0, _ => none
  | fuel + 1, parse =>
    match parse.tokens with
    | ⟨.alias name, start, _⟩ :: rest =>
      match parse.names.lookup name with
      | some target => some (.alias (lineOf start) name target, { parse with tokens := rest })
      | none => none
    | _ =>
      match parse.properties? with
      | some (properties, parse) => content block outdented fuel properties parse
      | none => none

/-- Reads the content of a node. -/
def content (block outdented : Bool) : (fuel : Nat) → Properties → Parse → Option (Node × Parse)
  | 0, _, _ => none
  | fuel + 1, properties, parse =>
    match parse.tokens with
    | [] => none
    | token :: rest =>
      let after := { parse with tokens := rest }
      let (number, inside) := after.declare properties.anchor
      match token.kind with
      | .scalar style text => some (after.scalar properties (scalarTag style text) text)
      | .flowSequenceStart => do
        let (items, parse) ← flowItems fuel true inside
        some (parse.complete number (.sequence properties.line (properties.tagOr .sequence) items))
      | .flowMappingStart => do
        let (entries, parse) ← flowEntries fuel true inside
        some (parse.complete number (.mapping properties.line (properties.tagOr .mapping) entries))
      | .blockEntry =>
        if outdented then do
          let (number, inside) := parse.declare properties.anchor
          let (items, parse) ← outdentedItems fuel inside
          some (parse.complete number (.sequence properties.line (properties.tagOr .sequence) items))
        else if properties.isEmpty then none
        else some (parse.scalar properties .null [])
      | .blockSequenceStart =>
        if block then do
          let (items, parse) ← blockItems fuel inside
          some (parse.complete number (.sequence properties.line (properties.tagOr .sequence) items))
        else if properties.isEmpty then none
        else some (parse.scalar properties .null [])
      | .blockMappingStart =>
        if block then do
          let (entries, parse) ← blockEntries fuel inside
          some (parse.complete number (.mapping properties.line (properties.tagOr .mapping) entries))
        else if properties.isEmpty then none
        else some (parse.scalar properties .null [])
      | _ =>
        if properties.isEmpty then none
        else some (parse.scalar properties .null [])

/-- Reads a node, or the one that is absent at a mark when the next token ends it. -/
def nodeUnless (ends : TokenKind → Bool) (block outdented : Bool) (mark : Mark) :
    (fuel : Nat) → Parse → Option (Node × Parse)
  | 0, _ => none
  | fuel + 1, parse =>
    match parse.tokens with
    | [] => none
    | token :: _ =>
      if ends token.kind then some (.absent (lineOf mark), parse)
      else node block outdented fuel parse

/-- Reads the items of a block sequence up to its end. -/
def blockItems : (fuel : Nat) → Parse → Option (List Node × Parse)
  | 0, _ => none
  | fuel + 1, parse =>
    match parse.tokens with
    | ⟨.blockEnd, _, _⟩ :: rest => some ([], { parse with tokens := rest })
    | ⟨.blockEntry, _, stop⟩ :: rest => do
      let (item, parse) ←
        nodeUnless endsItem true false stop fuel { parse with tokens := rest }
      let (items, parse) ← blockItems fuel parse
      some (item :: items, parse)
    | _ => none

/-- Reads the items of a block sequence that is not indented. -/
def outdentedItems : (fuel : Nat) → Parse → Option (List Node × Parse)
  | 0, _ => none
  | fuel + 1, parse =>
    match parse.tokens with
    | [] => none
    | ⟨.blockEntry, _, stop⟩ :: rest => do
      let (item, parse) ←
        nodeUnless endsOutdentedItem true false stop fuel { parse with tokens := rest }
      let (items, parse) ← outdentedItems fuel parse
      some (item :: items, parse)
    | _ => some ([], parse)

/-- Reads the entries of a block mapping up to its end. -/
def blockEntries : (fuel : Nat) → Parse → Option (List (Node × Node) × Parse)
  | 0, _ => none
  | fuel + 1, parse =>
    match parse.tokens with
    | ⟨.blockEnd, _, _⟩ :: rest => some ([], { parse with tokens := rest })
    | ⟨.key, _, stop⟩ :: rest => do
      let (key, parse) ←
        nodeUnless endsEntry true true stop fuel { parse with tokens := rest }
      let (value, parse) ← blockValue fuel parse
      let (entries, parse) ← blockEntries fuel parse
      some ((key, value) :: entries, parse)
    | _ => none

/-- Reads the value of an entry of a block mapping. -/
def blockValue : (fuel : Nat) → Parse → Option (Node × Parse)
  | 0, _ => none
  | fuel + 1, parse =>
    match parse.tokens with
    | [] => none
    | ⟨.value, _, stop⟩ :: rest =>
      nodeUnless endsEntry true true stop fuel { parse with tokens := rest }
    | token :: _ => some (.absent (lineOf token.start), parse)

/-- Reads the items of a sequence in brackets up to its end. -/
def flowItems : (fuel : Nat) → (first : Bool) → Parse → Option (List Node × Parse)
  | 0, _, _ => none
  | fuel + 1, first, parse =>
    match parse.tokens with
    | ⟨.flowSequenceEnd, _, _⟩ :: rest => some ([], { parse with tokens := rest })
    | _ => do
      let parse ← parse.separator? first
      match parse.tokens with
      | [] => none
      | ⟨.flowSequenceEnd, _, _⟩ :: rest => some ([], { parse with tokens := rest })
      | ⟨.key, start, _⟩ :: rest => do
        let (pair, parse) ← flowPair fuel { parse with tokens := rest }
        let (items, parse) ← flowItems fuel false parse
        some (.mapping (lineOf start) .mapping [pair] :: items, parse)
      | _ => do
        let (item, parse) ← node false false fuel parse
        let (items, parse) ← flowItems fuel false parse
        some (item :: items, parse)

/-- Reads a pair in a sequence in brackets. A token in the place of its key is passed. -/
def flowPair : (fuel : Nat) → Parse → Option ((Node × Node) × Parse)
  | 0, _ => none
  | fuel + 1, parse =>
    match parse.tokens with
    | [] => none
    | token :: rest => do
      let (key, parse) ←
        if endsPairKey token.kind then
          some (.absent (lineOf token.stop), { parse with tokens := rest })
        else node false false fuel parse
      let (value, parse) ← flowValue endsPairValue fuel parse
      some ((key, value), parse)

/-- Reads the value of an entry in brackets. -/
def flowValue (ends : TokenKind → Bool) : (fuel : Nat) → Parse → Option (Node × Parse)
  | 0, _ => none
  | fuel + 1, parse =>
    match parse.tokens with
    | [] => none
    | ⟨.value, _, _⟩ :: rest =>
      nodeUnless ends false false (rest.head?.map Token.start |>.getD {}) fuel
        { parse with tokens := rest }
    | token :: _ => some (.absent (lineOf token.start), parse)

/-- Reads the entries of a mapping in brackets up to its end. -/
def flowEntries : (fuel : Nat) → (first : Bool) → Parse → Option (List (Node × Node) × Parse)
  | 0, _, _ => none
  | fuel + 1, first, parse =>
    match parse.tokens with
    | ⟨.flowMappingEnd, _, _⟩ :: rest => some ([], { parse with tokens := rest })
    | _ => do
      let parse ← parse.separator? first
      match parse.tokens with
      | [] => none
      | ⟨.flowMappingEnd, _, _⟩ :: rest => some ([], { parse with tokens := rest })
      | ⟨.key, _, _⟩ :: rest => do
        let (key, parse) ←
          nodeUnless endsFlowKey false false (rest.head?.map Token.start |>.getD {}) fuel
            { parse with tokens := rest }
        let (value, parse) ← flowValue endsFlowValue fuel parse
        let (entries, parse) ← flowEntries fuel false parse
        some ((key, value) :: entries, parse)
      | token :: _ => do
        let (key, parse) ← node false false fuel parse
        let value := Node.absent (lineOf token.start)
        let (entries, parse) ← flowEntries fuel false parse
        some ((key, value) :: entries, parse)

end

/-- The tag handles that every document has. -/
def defaultHandles : List (Text × Text) :=
  [(Text.ofString "!", Text.ofString "!"), (Text.ofString "!!", Tag.coreStart)]

/-- Reads directives: a version at most once, which must be 1.1, and each tag handle at most
once. -/
def directives? : List Token → (versioned : Bool) → (handles : List (Text × Text)) →
    Option (List (Text × Text) × List Token)
  | ⟨.version major minor, _, _⟩ :: rest, versioned, handles =>
    if versioned || major ≠ 1 || minor ≠ 1 then none else directives? rest true handles
  | ⟨.tagDirective handle start, _, _⟩ :: rest, versioned, handles =>
    if (handles.lookup handle).isSome then none
    else directives? rest versioned ((handle, start) :: handles)
  | tokens, _, handles => some (handles ++ defaultHandles, tokens)

/-- Whether a token cannot be part of a document after its start. -/
def endsDocument : TokenKind → Bool
  | .version _ _ | .tagDirective _ _ | .documentStart | .documentEnd | .streamEnd => true
  | _ => false

/-- Whether a token starts a document by itself. -/
def startsDocument : TokenKind → Bool
  | .version _ _ | .tagDirective _ _ | .documentStart => true
  | _ => false

/-- Reads the root of a document up to the token after it, which must exist. -/
def document? (started : Bool) (handles : List (Text × Text)) (tokens : List Token) :
    Option Document := do
  let fuel := 4 * tokens.length + 8
  let parse : Parse := { tokens, handles }
  let (root, parse) ←
    if started then
      nodeUnless endsDocument true false (tokens.head?.map Token.start |>.getD {}) fuel parse
    else node true false fuel parse
  if parse.tokens.isEmpty then none else some ⟨root, parse.anchored, tokens.length⟩

end Parse

/-- What a YAML text holds. -/
inductive Contents where
  | malformed
  /-- The text has no document. -/
  | empty
  /-- The first document of the text. -/
  | first (document : Document)

/-- The contents of a sequence of tokens. -/
def Contents.ofTokens (tokens : List Token) : Contents :=
  match tokens with
  | [] => .malformed
  | token :: _ =>
    let document? : Option Document :=
      if Parse.startsDocument token.kind then
        match Parse.directives? tokens false [] with
        | some (handles, ⟨.documentStart, _, _⟩ :: rest) => Parse.document? true handles rest
        | _ => none
      else Parse.document? false Parse.defaultHandles tokens
    if token.kind = .streamEnd then .empty
    else
      match document? with
      | some document => .first document
      | none => .malformed

/-- The contents of a text. -/
def Contents.ofText (text : Text) : Contents :=
  match source? text with
  | some source => .ofTokens (tokens source)
  | none => .malformed

end Aml.Yaml
