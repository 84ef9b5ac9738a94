import Aml.Yaml.Property
import Aml.Yaml.Scalar.Block
import Aml.Yaml.Scalar.Plain

/-!
# Reading YAML tokens

The reader goes through a source from token to token. Block collections are opened and closed by
the column at which tokens stand. A key that no indicator marks is found out only at the colon
after it: the reader remembers where a key may have started, on the same line and at most 1024
characters before, and puts the token of the key there. A key is required where a token stands in
the column of the block collection around it.
-/
namespace Aml.Yaml

/-- A place at which a key may have started. -/
structure Candidate where
  /-- Whether anything but a key is an error there. -/
  required : Bool
  /-- The number of tokens before the place. -/
  count : Nat
  mark : Mark
  deriving DecidableEq

/-- Whether a candidate can still be a key at a mark. -/
def Candidate.isFresh (candidate : Candidate) (mark : Mark) : Bool :=
  candidate.mark.line = mark.line && mark.index ≤ candidate.mark.index + 1024

/-- A source that has been read in part. -/
structure Reader where
  cursor : Cursor
  /-- The tokens so far, latest first. -/
  tokens : List Token := []
  /-- The column of the innermost block collection, or -1 outside all of them. -/
  indent : Int := -1
  /-- The columns of the collections around it, innermost first. -/
  indents : List Int := []
  /-- Whether a key may start at the next token. -/
  keyAllowed : Bool := true
  /-- The candidate inside the innermost brackets. -/
  candidate : Option Candidate := none
  /-- The candidates around each pair of brackets, innermost first. -/
  outer : List (Option Candidate) := []

namespace Reader

/-- Whether the place is inside brackets. -/
def inFlow (reader : Reader) : Bool :=
  !reader.outer.isEmpty

/-- The mark of the place. -/
def mark (reader : Reader) : Mark :=
  reader.cursor.mark

/-- Adds a token that ends at another place and goes on from there. -/
def push (reader : Reader) (kind : TokenKind) (cursor : Cursor) : Reader :=
  { reader with cursor, tokens := ⟨kind, reader.mark, cursor.mark⟩ :: reader.tokens }

/-- Adds a token of a number of characters. -/
def pushIndicator (reader : Reader) (kind : TokenKind) (length : Nat) : Reader :=
  reader.push kind (reader.cursor.skip length)

/-- Puts a token without characters after the first `count` tokens. -/
def insert (reader : Reader) (kind : TokenKind) (count : Nat) (mark : Mark) : Reader :=
  let later := reader.tokens.length - count
  { reader with
    tokens := reader.tokens.take later ++ ⟨kind, mark, mark⟩ :: reader.tokens.drop later }

/-! ## White space -/

/-- Whether a comment has been read in front of a token. -/
inductive Comment where
  | absent
  /-- The place is inside a comment. -/
  | current
  | past
  deriving DecidableEq

/-- Skips white space and comments; a line break outside brackets allows a key. Tabs may not stand
where a key may start, unless they separate comments. -/
def skipSpace (flow : Bool) : (keyAllowed : Bool) → Comment → List Char → Mark → Bool × Cursor
  | keyAllowed, _, [], mark => (keyAllowed, ⟨[], mark⟩)
  | keyAllowed, comment, first :: rest, mark =>
    if isBreak first then
      skipSpace flow (keyAllowed || !flow) (if comment = .absent then .absent else .past) rest
        mark.down
    else if comment = .current then skipSpace flow keyAllowed .current rest (mark.right 1)
    else if first = '#' then skipSpace flow keyAllowed .current rest (mark.right 1)
    else if first = ' ' then skipSpace flow keyAllowed comment rest (mark.right 1)
    else if first = '\t' && (flow || !keyAllowed
        || comment = .past && startsWith '#' (rest.dropWhile isSpace)) then
      skipSpace flow keyAllowed comment rest (mark.right 1)
    else (keyAllowed, ⟨first :: rest, mark⟩)

/-- Skips white space and comments in front of a token. -/
def toToken (reader : Reader) : Reader :=
  let (keyAllowed, cursor) := skipSpace reader.inFlow reader.keyAllowed .absent reader.cursor.rest
    reader.mark
  { reader with keyAllowed, cursor }

/-- Whether the last token leaves its line to a comment. -/
def leavesLine (reader : Reader) : Bool :=
  match reader.tokens with
  | [] => false
  | token :: _ =>
    match token.kind with
    | .blockEntry => false
    | .documentStart => false
    | .documentEnd => false
    | .version _ _ => false
    | .tagDirective _ _ => false
    | .scalar .block _ => false
    | .scalar .plain _ => !reader.keyAllowed
    | _ => true

/-- Skips the comment after a token on its line. -/
def skipComment (reader : Reader) : Reader :=
  let after := reader.cursor.skipBlanks
  if reader.leavesLine && startsWith '#' after.rest then { reader with cursor := after.skipLine }
  else reader

/-! ## Block collections -/

/-- Ends the block collections with columns beyond the given one; the columns around the innermost
are given one by one. -/
def unrollFrom (column : Int) (reader : Reader) : (indents : List Int) → Reader
  | [] => reader
  | outer :: indents =>
    if column < reader.indent then
      unrollFrom column
        { reader.insert .blockEnd reader.tokens.length reader.mark with
          indent := outer, indents := indents }
        indents
    else reader

/-- Ends the block collections with columns beyond the given one. -/
def unroll (reader : Reader) (column : Int) : Reader :=
  if reader.inFlow then reader else unrollFrom column reader reader.indents

/-- Starts a block collection at a column beyond the one around it, after `count` tokens. -/
def roll (reader : Reader) (kind : TokenKind) (count : Nat) (mark : Mark) : Reader :=
  if !reader.inFlow && reader.indent < mark.column then
    { reader.insert kind count mark with
      indent := mark.column, indents := reader.indent :: reader.indents }
  else reader

/-! ## Keys without an indicator -/

/-- Drops the candidate, which must not be required. -/
def dropCandidate (reader : Reader) : Option Reader :=
  if reader.candidate.any Candidate.required then none
  else some { reader with candidate := none }

/-- Makes the next token a candidate if a key may start there. -/
def saveCandidate (reader : Reader) : Option Reader :=
  if reader.keyAllowed then do
    let reader ← reader.dropCandidate
    let required := !reader.inFlow && reader.indent = reader.mark.column
    some { reader with candidate := some ⟨required, reader.tokens.length, reader.mark⟩ }
  else some reader

/-! ## Tokens -/

/-- Ends all block collections in front of a token between documents. -/
def leaveDocument (reader : Reader) : Option Reader := do
  let reader ← (reader.unroll (-1)).dropCandidate
  some { reader with keyAllowed := false }

/-- The directive at the place. -/
def directive (reader : Reader) : Option Reader := do
  let reader ← reader.leaveDocument
  let (kind, stop, cursor) ← Property.directive? (reader.cursor.skip 1)
  some { reader.push kind stop with cursor }

/-- The marker between documents at the place. -/
def documentMarker (reader : Reader) (kind : TokenKind) : Option Reader := do
  let reader ← reader.leaveDocument
  some (reader.pushIndicator kind 3)

/-- The opening bracket at the place. -/
def openBracket (reader : Reader) (kind : TokenKind) : Option Reader := do
  let reader ← reader.saveCandidate
  some
    { reader.pushIndicator kind 1 with
      keyAllowed := true, candidate := none, outer := reader.candidate :: reader.outer }

/-- The closing bracket at the place. -/
def closeBracket (reader : Reader) (kind : TokenKind) : Option Reader := do
  let reader ← reader.dropCandidate
  let reader := { reader.pushIndicator kind 1 with keyAllowed := false }
  match reader.outer with
  | [] => some reader
  | candidate :: outer => some { reader with candidate, outer }

/-- The comma at the place. -/
def flowEntry (reader : Reader) : Option Reader := do
  let reader ← reader.dropCandidate
  some { reader.pushIndicator .flowEntry 1 with keyAllowed := true }

/-- The dash at the place. -/
def blockEntry (reader : Reader) : Option Reader := do
  if !reader.inFlow && !reader.keyAllowed then none
  else
    let reader ←
      (reader.roll .blockSequenceStart reader.tokens.length reader.mark).dropCandidate
    some { reader.pushIndicator .blockEntry 1 with keyAllowed := true }

/-- The question mark at the place. -/
def key (reader : Reader) : Option Reader := do
  if !reader.inFlow && !reader.keyAllowed then none
  else
    let reader ← (reader.roll .blockMappingStart reader.tokens.length reader.mark).dropCandidate
    some { reader.pushIndicator .key 1 with keyAllowed := !reader.inFlow }

/-- The colon at the place after a key that the candidate starts. -/
def simpleValue (reader : Reader) (candidate : Candidate) : Reader :=
  let reader := reader.insert .key candidate.count candidate.mark
  let reader := reader.roll .blockMappingStart candidate.count candidate.mark
  { reader.pushIndicator .value 1 with candidate := none, keyAllowed := false }

/-- The colon at the place after a key that a question mark starts. -/
def complexValue (reader : Reader) : Option Reader :=
  if !reader.inFlow && !reader.keyAllowed then none
  else
    let reader := reader.roll .blockMappingStart reader.tokens.length reader.mark
    some
      { reader.pushIndicator .value 1 with candidate := none, keyAllowed := !reader.inFlow }

/-- The colon at the place. -/
def value (reader : Reader) : Option Reader :=
  match reader.candidate with
  | none => reader.complexValue
  | some candidate =>
    if candidate.isFresh reader.mark then some (reader.simpleValue candidate)
    else if candidate.required then none
    else reader.complexValue

/-- The alias or anchor at the place. -/
def name (reader : Reader) (kind : Text → TokenKind) : Option Reader := do
  let reader ← reader.saveCandidate
  let (name, cursor) ← Property.name? (reader.cursor.skip 1)
  some { reader.push (kind name) cursor with keyAllowed := false }

/-- The tag at the place. -/
def tag (reader : Reader) : Option Reader := do
  let reader ← reader.saveCandidate
  let (kind, cursor) ← Property.tag? (reader.cursor.skip 1)
  some { reader.push kind cursor with keyAllowed := false }

/-- The block scalar at the place. -/
def blockScalar (reader : Reader) (folds : Bool) : Option Reader := do
  let reader ← reader.dropCandidate
  let (text, cursor) ← Block.read folds reader.indent (reader.cursor.skip 1)
  some { reader.push (.scalar .block (textOf text)) cursor with keyAllowed := true }

/-- The quoted scalar at the place. -/
def quotedScalar (reader : Reader) (double : Bool) : Option Reader := do
  let reader ← reader.saveCandidate
  let (text, cursor) ← Quoted.read double (reader.cursor.skip 1)
  some { reader.push (.scalar .quoted (textOf text)) cursor with keyAllowed := false }

/-- The plain scalar at the place. -/
def plainScalar (reader : Reader) : Option Reader := do
  let reader ← reader.saveCandidate
  let reading ← Plain.read reader.inFlow (reader.indent + 1).toNat reader.cursor
  some
    { reader.push (.scalar .plain (textOf reading.value)) reading.cursor with
      keyAllowed := reading.broken }

/-- The characters that start no plain scalar. -/
def indicators : List Char :=
  ['-', '?', ':', ',', '[', ']', '{', '}', '#', '&', '*', '!', '|', '>', '\'', '"', '%', '@',
    Char.ofNat 0x60]

/-- Whether a plain scalar starts with a character that the given ones follow. -/
def startsPlain (flow : Bool) (first : Char) (rest : List Char) : Bool :=
  if first = '-' then !rest.head?.any isBlank
  else if first = '?' ∨ first = ':' then !flow && !atSpace rest
  else !isSpace first && !indicators.contains first

/-- The token at the place, which the given characters start. -/
def token (reader : Reader) (first : Char) (rest : List Char) : Option Reader :=
  let column := reader.mark.column
  if column = 0 && first = '%' then reader.directive
  else if column = 0 && atMarker '-' (first :: rest) then reader.documentMarker .documentStart
  else if column = 0 && atMarker '.' (first :: rest) then reader.documentMarker .documentEnd
  else if first = '[' then reader.openBracket .flowSequenceStart
  else if first = '{' then reader.openBracket .flowMappingStart
  else if first = ']' then reader.closeBracket .flowSequenceEnd
  else if first = '}' then reader.closeBracket .flowMappingEnd
  else if first = ',' then reader.flowEntry
  else if first = '-' && atSpace rest then reader.blockEntry
  else if first = '?' && (reader.inFlow || atSpace rest) then reader.key
  else if first = ':' && (reader.inFlow || atSpace rest) then reader.value
  else if first = '*' then reader.name .alias
  else if first = '&' then reader.name .anchor
  else if first = '!' then reader.tag
  else if first = '|' && !reader.inFlow then reader.blockScalar false
  else if first = '>' && !reader.inFlow then reader.blockScalar true
  else if first = '\'' then reader.quotedScalar false
  else if first = '"' then reader.quotedScalar true
  else if startsPlain reader.inFlow first rest then reader.plainScalar
  else none

/-- The end of the source. -/
def streamEnd (reader : Reader) : Option Reader := do
  let mark := if reader.mark.column = 0 then reader.mark
    else { reader.mark with line := reader.mark.line + 1, column := 0 }
  let reader ← { reader with cursor := ⟨[], mark⟩ }.leaveDocument
  some (reader.push .streamEnd reader.cursor)

/-- Reads the next token, unless there is none. -/
def next (reader : Reader) : Option Reader :=
  let reader := reader.toToken
  let reader := reader.unroll reader.mark.column
  match reader.cursor.rest with
  | [] => reader.streamEnd
  | first :: rest => (reader.token first rest).map skipComment

/-- Whether the end of the source has been read. -/
def isFinished (reader : Reader) : Bool :=
  reader.tokens.head?.any fun token => token.kind = .streamEnd

/-- Reads tokens up to the end of the source or a place where there is none; `fuel` bounds the
number of tokens. -/
def readAll : (fuel : Nat) → Reader → Reader
  | 0, reader => reader
  | fuel + 1, reader =>
    if reader.isFinished then reader
    else
      match reader.next with
      | some reader => readAll fuel reader
      | none => reader

end Reader

/-- The tokens of a source. Where the source has no further token, the two tokens before that
place cannot be told apart from what follows and are left out. -/
def tokens (source : List Char) : List Token :=
  let reader := Reader.readAll (source.length + 2) { cursor := ⟨source, {}⟩ }
  if reader.isFinished then reader.tokens.reverse else (reader.tokens.drop 2).reverse

end Aml.Yaml
