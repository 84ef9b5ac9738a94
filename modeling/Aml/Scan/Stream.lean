import Aml.Keyword.Table
import Aml.Scan.Error
import Aml.Scan.Piece

/-!
# Token streams

A stream reads the pieces of a cut source one after the other. A piece of a suppressing rule makes
no token and may advance the line counter; any other piece makes a token, whose value its
converter computes. A name that the keyword table knows becomes a keyword without a value. A
stream ends with its source, or with the first error, and then stays as it is.

Two loops ask a stream for tokens up to its end: one gives all tokens or the error, the other the
tokens before the error as well. Both take an error that stands for the end of the input for that
end, although the stream itself answers with the error.
-/
namespace Aml

/-- What a piece becomes. -/
inductive Reading where
  /-- The piece makes no token and leaves the line counter at a line. -/
  | skipped (line : Int)
  | token (token : Token)
  | failed (error : ScanError)

/-- Reclassifies a token by the keyword table, if its rule reads names. -/
def KeywordTable.resolve (table : KeywordTable) (rule : Rule) (token : Token) : Token :=
  if rule.kind = .operand .identifier then
    match table.lookup? token.lexeme with
    | some kind => { token with kind := .reserved kind, value := none }
    | none => token
  else token

namespace Piece

/-- The error of a piece whose literal has no value. -/
def failure (piece : Piece) (line : Int) (cause : LiteralError) : ScanError :=
  match piece.rule.kind with
  | .operand .integer | .operand .real =>
    .malformedNumber piece.lexeme piece.rule.kind line piece.position (some cause)
  | _ => .conversion line piece.rule.name piece.lexeme cause

/-- Makes the token of a piece. -/
def token (piece : Piece) (table : KeywordTable) (line : Int) : Except ScanError Token :=
  let token (value : Option Value) : Token :=
    ⟨piece.rule.kind, piece.lexeme, value, line, piece.position⟩
  match piece.rule.converter with
  | none => .ok (table.resolve piece.rule (token none))
  | some converter =>
    match converter.convert piece.lexeme with
    | .ok value => .ok (table.resolve piece.rule (token value))
    | .error cause => .error (piece.failure line cause)

/-- Reads a piece with the line counter at a line. -/
def read (piece : Piece) (table : KeywordTable) (line : Int) : Reading :=
  if piece.rule.isSilent then .skipped line
  else if piece.rule.suppress then
    .skipped (if piece.rule.countLines then line + piece.lexeme.newlines else line)
  else
    match piece.token table line with
    | .ok token => .token token
    | .error error => .failed error

end Piece

/-- Rules and a keyword table, ready to scan any number of sources. -/
structure Scanner where
  registry : Registry
  table : KeywordTable

/-- Reads a match of the engine, whose rule is looked up by its symbol. -/
def Scanner.read (scanner : Scanner) (piece : Piece) (line : Int) : Reading :=
  let symbol := scanner.registry.symbol piece.rule.name
  match scanner.registry.rule? symbol with
  | none => .failed (.noRule line symbol)
  | some rule => Piece.read { piece with rule } scanner.table line

/-- Where a stream stands. -/
inductive Phase where
  | scanning
  | finished
  | failed (error : ScanError)
  deriving DecidableEq

/-- A scan in progress. -/
structure Stream where
  scanner : Scanner
  source : Text
  /-- The pieces still to be read. -/
  pieces : List Piece
  ending : Ending
  /-- The line counter. -/
  line : Int
  phase : Phase

/-- What asking a stream for a token gives. -/
inductive Answer where
  | token (token : Token)
  | finished
  | failed (error : ScanError)
  deriving DecidableEq

/-- The error of a source at which the engine stops: the character at the place that the fault
tells, if it tells one before the end of the source. -/
def EngineFault.error (fault : EngineFault) (source : Text) (line : Int) : ScanError :=
  match fault.position? with
  | none => .unlocated line fault.message
  | some position =>
    if position.offset < 0 then .unlocated line fault.message
    else
      match source.drop position.offset.toNat with
      | [] => .unlocated line fault.message
      | byte :: rest => .illegalCharacter (Text.firstCharacter byte rest).scalar line position

namespace Stream

/-- The phase in which a cut leaves a stream once its pieces are read. -/
def endPhase (source : Text) (ending : Ending) (line : Int) : Phase :=
  match ending with
  | .finished => .finished
  | .stopped fault => .failed (fault.error source line)

/-- The answer of a stream that has ended. -/
def Phase.answer : Phase → Answer
  | .failed error => .failed error
  | _ => .finished

/-- Reads pieces until one makes a token. -/
def advance (scanner : Scanner) (source : Text) (ending : Ending) : (line : Int) → List Piece →
    Answer × Stream
  | line, [] =>
    let phase := endPhase source ending line
    (Phase.answer phase, ⟨scanner, source, [], ending, line, phase⟩)
  | line, piece :: rest =>
    match scanner.read piece line with
    | .skipped line => advance scanner source ending line rest
    | .token token => (.token token, ⟨scanner, source, rest, ending, line, .scanning⟩)
    | .failed error => (.failed error, ⟨scanner, source, rest, ending, line, .failed error⟩)

/-- Asks a stream for its next token. -/
def next (stream : Stream) : Answer × Stream :=
  match stream.phase with
  | .scanning => advance stream.scanner stream.source stream.ending stream.line stream.pieces
  | phase => (Phase.answer phase, stream)

/-- Asks a stream for all its tokens, at most `asks` times, with the tokens before them latest
first. -/
def collect : (asks : Nat) → Stream → (tokens : List Token) → Except ScanError (List Token)
  | 0, _, tokens => .ok tokens.reverse
  | asks + 1, stream, tokens =>
    match stream.next with
    | (.token token, stream) => collect asks stream (token :: tokens)
    | (.finished, _) => .ok tokens.reverse
    | (.failed error, _) => if error.endsInput then .ok tokens.reverse else .error error

/-- Asks a stream for its tokens up to an error, at most `asks` times, with the tokens before them
latest first. -/
def collectUntilFailure : (asks : Nat) → Stream → (tokens : List Token) →
    List Token × Option ScanError
  | 0, _, tokens => (tokens.reverse, none)
  | asks + 1, stream, tokens =>
    match stream.next with
    | (.token token, stream) => collectUntilFailure asks stream (token :: tokens)
    | (.finished, _) => (tokens.reverse, none)
    | (.failed error, _) => (tokens.reverse, if error.endsInput then none else some error)

/-- How often a stream can be asked before it has ended: each token takes a piece. -/
def patience (stream : Stream) : Nat :=
  stream.pieces.length + 1

end Stream

/-- Why no scanner can be built. -/
inductive ScannerError where
  | noTable
  | registry (error : RegistryError)

/-- The message of a scanner that cannot be built. -/
def ScannerError.message : ScannerError → Text
  | .noTable => "keyword table is required"
  | .registry error => error.message

namespace Scanner

/-- Builds a scanner from rules and a keyword table, which must be present. -/
def build (table : Option KeywordTable) (rules : List Rule) : Except ScannerError Scanner :=
  match table with
  | none => .error .noTable
  | some table =>
    match Registry.ofRules rules with
    | .ok registry => .ok ⟨registry, table⟩
    | .error error => .error (.registry error)

/-- Starts a scan of a source. -/
def stream (scanner : Scanner) (source : Text) : Stream :=
  let cut := scanner.registry.cut source
  ⟨scanner, source, cut.pieces, cut.ending, 1, .scanning⟩

/-- All tokens of a source, or the error at which its scan fails. -/
def scan (scanner : Scanner) (source : Text) : Except ScanError (List Token) :=
  let stream := scanner.stream source
  stream.collect stream.patience []

/-- The tokens before the end of a scan, and the error at which it fails. -/
def scanUntilFailure (scanner : Scanner) (source : Text) : List Token × Option ScanError :=
  let stream := scanner.stream source
  stream.collectUntilFailure stream.patience []

end Scanner

end Aml
