import Mathlib
import Aml.Proofs.Yaml.Reader
import Aml.Yaml.Document

/-!
# Reading block mappings of plain scalars

What a document is read as depends on the kinds of its tokens; their marks only tell on which lines
nodes start. A plain scalar in the place of a key or a value is a node by itself
(`nodeUnless_plain`), so the tokens of entries with plain scalars, up to the end of their mapping,
are read as that many pairs of scalars (`exists_blockEntries`). A mapping with one entry, whose
value is such a mapping, is a document (`exists_document`).
-/
namespace Aml.Yaml

/-- Two nodes that are the plain scalars with the given texts. -/
def ArePlain (texts : Text × Text) (nodes : Node × Node) : Prop :=
  ∃ keyLine valueLine, nodes =
    (.scalar keyLine (.ofPlain texts.1) texts.1, .scalar valueLine (.ofPlain texts.2) texts.2)

namespace Parse

variable {parse : Parse} {token : Token} {rest : List Token}

/-- A plain scalar without properties is a node by itself. -/
theorem nodeUnless_plain {text : Text} (found : parse.tokens = token :: rest)
    (kind : token.kind = .scalar .plain text) (block outdented : Bool) (mark : Mark) (fuel : Nat) :
    nodeUnless endsEntry block outdented mark (fuel + 3) parse =
      some (.scalar (lineOf token.start) (.ofPlain text) text, { parse with tokens := rest }) := by
  obtain ⟨tokens, handles, names, anchored⟩ := parse
  obtain ⟨_, start, stop⟩ := token
  cases found
  cases kind
  simp [nodeUnless, endsEntry, node, properties?, anchor, tag, content, scalar, declare, complete,
    scalarTag, Properties.tagOr]

/-- A block mapping without properties is a node of its entries. -/
theorem node_blockMapping {entries : List (Node × Node)} {after : Parse} {fuel : Nat}
    (found : parse.tokens = token :: rest) (kind : token.kind = .blockMappingStart)
    (read : blockEntries fuel { parse with tokens := rest } = some (entries, after))
    (outdented : Bool) :
    node true outdented (fuel + 2) parse =
      some (.mapping (lineOf token.start) .mapping entries, after) := by
  obtain ⟨tokens, handles, names, anchored⟩ := parse
  obtain ⟨_, start, stop⟩ := token
  cases found
  cases kind
  simp [node, properties?, anchor, tag, content, declare, complete, read, Properties.tagOr]

/-- A value is read after its indicator. -/
theorem blockValue_eq {fuel : Nat} (found : parse.tokens = token :: rest)
    (kind : token.kind = .value) :
    blockValue (fuel + 1) parse =
      nodeUnless endsEntry true true token.stop fuel { parse with tokens := rest } := by
  obtain ⟨tokens, handles, names, anchored⟩ := parse
  obtain ⟨_, start, stop⟩ := token
  cases found
  cases kind
  rfl

/-- A plain scalar is the value of an entry. -/
theorem blockValue_plain {value : Token} {text : Text}
    (found : parse.tokens = token :: value :: rest) (kind : token.kind = .value)
    (written : value.kind = .scalar .plain text) (fuel : Nat) :
    blockValue (fuel + 4) parse =
      some (.scalar (lineOf value.start) (.ofPlain text) text, { parse with tokens := rest }) := by
  rw [blockValue_eq found kind]
  exact @nodeUnless_plain { parse with tokens := value :: rest } _ _ _ rfl written _ _ _ _

/-- A block mapping is the value of an entry. -/
theorem blockValue_blockMapping {opening : Token} {entries : List (Node × Node)} {after : Parse}
    {fuel : Nat} (found : parse.tokens = token :: opening :: rest) (kind : token.kind = .value)
    (opens : opening.kind = .blockMappingStart)
    (read : blockEntries fuel { parse with tokens := rest } = some (entries, after)) :
    blockValue (fuel + 4) parse =
      some (.mapping (lineOf opening.start) .mapping entries, after) := by
  have goes : endsEntry opening.kind = false := by
    rw [opens]
    rfl
  rw [blockValue_eq found kind, nodeUnless]
  simp only [goes, Bool.false_eq_true, if_false]
  exact @node_blockMapping { parse with tokens := opening :: rest } _ _ _ _ _ rfl opens read true

/-- The end of a mapping ends its entries. -/
theorem blockEntries_end (found : parse.tokens = token :: rest) (kind : token.kind = .blockEnd)
    (fuel : Nat) :
    blockEntries (fuel + 1) parse = some ([], { parse with tokens := rest }) := by
  obtain ⟨tokens, handles, names, anchored⟩ := parse
  obtain ⟨_, start, stop⟩ := token
  cases found
  cases kind
  rfl

/-- A plain scalar and the node of a value are the first entry of a mapping. -/
theorem blockEntries_cons {fuel : Nat} {scalar : Token} {text : Text} {value : Node}
    {entries : List (Node × Node)} {between after : Parse}
    (found : parse.tokens = token :: scalar :: rest) (kind : token.kind = .key)
    (written : scalar.kind = .scalar .plain text)
    (valued : blockValue (fuel + 3) { parse with tokens := rest } = some (value, between))
    (read : blockEntries (fuel + 3) between = some (entries, after)) :
    blockEntries (fuel + 4) parse = some
      ((.scalar (lineOf scalar.start) (.ofPlain text) text, value) :: entries, after) := by
  obtain ⟨tokens, handles, names, anchored⟩ := parse
  obtain ⟨_, start, stop⟩ := token
  cases found
  cases kind
  have keyed := @nodeUnless_plain ⟨scalar :: rest, handles, names, anchored⟩ scalar rest text rfl
    written true true stop fuel
  rw [blockEntries]
  simp only [keyed, Option.bind_eq_bind, Option.bind_some]
  simp only [valued, Option.bind_some, read]

/-- The entries of plain scalars are read up to the end of their mapping. -/
theorem exists_blockEntries {pairs : List (Text × Text)} {more : List TokenKind} {parse : Parse}
    (kinds : parse.tokens.map Token.kind =
      pairs.flatMap Reader.entryKinds ++ .blockEnd :: more) (fuel : Nat) :
    ∃ entries rest, blockEntries (fuel + 5 + pairs.length) parse =
        some (entries, { parse with tokens := rest }) ∧
      rest.map Token.kind = more ∧ List.Forall₂ ArePlain pairs entries := by
  induction pairs generalizing parse with
  | nil =>
    obtain ⟨token, rest, found, kind, others⟩ := List.map_eq_cons_iff.mp kinds
    exact ⟨[], rest, blockEntries_end found kind _, others, .nil⟩
  | cons pair pairs ih =>
    rw [List.flatMap_cons, Reader.entryKinds] at kinds
    simp only [List.cons_append, List.nil_append] at kinds
    obtain ⟨key, first, found, keyKind, kinds⟩ := List.map_eq_cons_iff.mp kinds
    obtain ⟨scalar, second, rfl, scalarKind, kinds⟩ := List.map_eq_cons_iff.mp kinds
    obtain ⟨indicator, third, rfl, valueKind, kinds⟩ := List.map_eq_cons_iff.mp kinds
    obtain ⟨value, fourth, rfl, plainKind, kinds⟩ := List.map_eq_cons_iff.mp kinds
    obtain ⟨entries, rest, read, left, plain⟩ := @ih { parse with tokens := fourth } kinds
    have valued := @blockValue_plain { parse with tokens := indicator :: value :: fourth } _ _ _ _
      rfl valueKind plainKind (fuel + pairs.length + 1)
    -- Every entry takes one step, so the spare fuel for its value is left at each of them.
    have inner : fuel + 5 + pairs.length = fuel + pairs.length + 1 + 4 := by omega
    have outer : fuel + 5 + (pair :: pairs).length = fuel + pairs.length + 2 + 4 := by
      rw [List.length_cons]
      omega
    rw [inner] at read
    rw [outer]
    exact ⟨_, rest, blockEntries_cons found keyKind scalarKind valued read, left,
      .cons ⟨_, _, rfl⟩ plain⟩

/-- The tokens of entries are four for each of them. -/
theorem length_entryKinds (pairs : List (Text × Text)) :
    (pairs.flatMap Reader.entryKinds).length = 4 * pairs.length := by
  induction pairs with
  | nil => rfl
  | cons pair rest ih =>
    rw [List.flatMap_cons, List.length_append, ih, List.length_cons]
    simp only [Reader.entryKinds, List.length_cons, List.length_nil]
    omega

/-- A mapping that is read before the last token is the root of a document. -/
theorem ofTokens_blockMapping {tokens : List Token} {fuel : Nat} {root : Node} {after : Parse}
    (kind : token.kind = .blockMappingStart) (size : 4 * (token :: tokens).length + 8 = fuel)
    (read : node true false fuel { tokens := token :: tokens, handles := defaultHandles } =
      some (root, after)) (more : after.tokens ≠ []) :
    Contents.ofTokens (token :: tokens) =
      .first ⟨root, after.anchored, (token :: tokens).length⟩ := by
  have whole : document? false defaultHandles (token :: tokens) =
      some ⟨root, after.anchored, (token :: tokens).length⟩ := by
    simp only [document?, size, read, Bool.false_eq_true, if_false, Option.bind_eq_bind,
      Option.bind_some, List.isEmpty_iff, more]
  simp [Contents.ofTokens, kind, startsDocument, whole]

/-- A mapping with one entry, whose key is a plain scalar and whose value is a mapping of plain
scalars, is the root of a document. -/
theorem exists_document {header : Text} {pairs : List (Text × Text)} {tokens : List Token}
    (kinds : tokens.map Token.kind =
      .blockMappingStart :: .key :: .scalar .plain header :: .value :: .blockMappingStart ::
        (pairs.flatMap Reader.entryKinds ++ [.blockEnd, .blockEnd, .streamEnd])) :
    ∃ document line headerLine inner entries, Contents.ofTokens tokens = .first document ∧
      document.root = .mapping line .mapping
        [(.scalar headerLine (.ofPlain header) header, .mapping inner .mapping entries)] ∧
      List.Forall₂ ArePlain pairs entries := by
  have size : tokens.length = 4 * pairs.length + 8 := by
    rw [← List.length_map (f := Token.kind), kinds]
    simp only [List.length_cons, List.length_nil, List.length_append, length_entryKinds]
  obtain ⟨opens, first, rfl, opensKind, kinds⟩ := List.map_eq_cons_iff.mp kinds
  obtain ⟨key, second, rfl, keyKind, kinds⟩ := List.map_eq_cons_iff.mp kinds
  obtain ⟨scalar, third, rfl, scalarKind, kinds⟩ := List.map_eq_cons_iff.mp kinds
  obtain ⟨indicator, fourth, rfl, valueKind, kinds⟩ := List.map_eq_cons_iff.mp kinds
  obtain ⟨inside, fifth, rfl, insideKind, kinds⟩ := List.map_eq_cons_iff.mp kinds
  let parse (tokens : List Token) : Parse := { tokens, handles := defaultHandles }
  obtain ⟨entries, _, read, left, plain⟩ :=
    @exists_blockEntries pairs _ (parse fifth) kinds (15 * pairs.length + 28)
  obtain ⟨last, ended, rfl, lastKind, left⟩ := List.map_eq_cons_iff.mp left
  obtain ⟨stop, nothing, rfl, _, _⟩ := List.map_eq_cons_iff.mp left
  -- The fuel of a document is more than its entries need by some steps around them.
  have amount : 15 * pairs.length + 28 + 5 + pairs.length = 16 * pairs.length + 33 := by omega
  rw [amount] at read
  have valued := @blockValue_blockMapping (parse (indicator :: inside :: fifth)) _ _ _ _ _ _ rfl
    valueKind insideKind read
  have closed := @blockEntries_end (parse (last :: stop :: nothing)) _ _ rfl lastKind
    (16 * pairs.length + 36)
  have whole := @blockEntries_cons (parse (key :: scalar :: indicator :: inside :: fifth)) _ _ _ _ _
    _ _ _ _ rfl keyKind scalarKind valued closed
  have root := @node_blockMapping (parse (opens :: key :: scalar :: indicator :: inside :: fifth))
    _ _ _ _ _ rfl opensKind whole false
  have held := ofTokens_blockMapping opensKind (by omega) root (List.cons_ne_nil stop _)
  exact ⟨_, _, _, _, entries, held, rfl, plain⟩

end Parse

end Aml.Yaml
