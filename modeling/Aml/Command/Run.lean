import Aml.Command.Listing
import Aml.Command.Options
import Aml.Diagnostic.Lexical
import Aml.Diagnostic.Report
import Aml.Keyword.Load
import Aml.Rule.Default
import Aml.Scan.Stream

/-!
# Running the command

The command scans a file and lists its tokens, or reports the error at which the scan fails. It may
list the rules instead, and take the keyword table from a file. Reading files is left to the
caller, and so is the time that a run took, which the last line of its messages shows.
-/
namespace Aml.Command

/-- What reading a file gives. -/
inductive FileContents where
  | text (bytes : Text)
  | missing
  | directory
  | denied

/-- What a file holds, or the message of the failure to read it. -/
def FileContents.read (contents : FileContents) (path : Text) : Except Text Text :=
  match contents with
  | .text bytes => .ok bytes
  | .missing => .error ("open " ++ path ++ ": no such file or directory")
  | .directory => .error ("read " ++ path ++ ": is a directory")
  | .denied => .error ("open " ++ path ++ ": permission denied")

/-- The last line of the messages of a scan. -/
inductive Summary where
  | scanned (path : Text) (count : Nat)
  | failed
  deriving DecidableEq

/-- A summary with the time that the scan took. -/
def Summary.render (summary : Summary) (color : Bool) (elapsed : Text) : Text :=
  let line : Text := match summary with
    | .scanned path count =>
      paint color [.green]
        ("Tokenized " ++ path ++ " (" ++ Text.ofNat count ++ " tokens) in " ++ elapsed)
    | .failed => paint color [.red] ("Tokenization failed after " ++ elapsed)
  line ++ [Text.newline]

/-- What a run of the command does. -/
structure Outcome where
  /-- The exit status. -/
  status : Nat
  /-- What is written to the standard output. -/
  output : Text := []
  /-- What is written to the standard error, up to the summary. -/
  messages : Text := []
  summary : Option Summary := none

/-- All that is written to the standard error. -/
def Outcome.errors (outcome : Outcome) (color : Bool) (elapsed : Text) : Text :=
  outcome.messages ++ match outcome.summary with
    | some summary => summary.render color elapsed
    | none => []

/-- How the command is used. -/
def usage : Text :=
  [Text.ofString "Usage: aml-lex [-keywords file.yaml] [-rules] [-v N] <file.aml>\n",
   Text.ofString "  -keywords string\n",
   Text.ofString "    \tYAML keyword table (default: built-in table)\n",
   Text.ofString "  -rules\n",
   Text.ofString "    \tprint the rule priority order and exit\n",
   Text.ofString "  -v int\n",
   Text.ofString "    \tlog verbosity\n"].flatten

/-- The outcome of a call that does not follow the usage. -/
def misuse (message : Option Text) : Outcome where
  status := 2
  messages :=
    (match message with
      | some message => message ++ [Text.newline]
      | none => []) ++ usage

/-- The outcome of a keyword table that cannot be loaded. -/
def badTable (color : Bool) (path message : Text) : Outcome where
  status := 1
  messages := Reporter.report ⟨path, [], color⟩ (Diagnostic.keywordTable path message)

/-- The keyword table in a file, or the message of the failure to load it. -/
def loadTable (path : Text) (contents : FileContents) : Except Text KeywordTable :=
  match contents.read path with
  | .error message => .error ("failed to read keyword table " ++ path ++ ": " ++ message)
  | .ok text =>
    match KeywordTable.load text with
    | .ok table => .ok table
    | .error error => .error (path ++ ": " ++ error.message)

/-- The outcome of scanning a file. -/
def scanFile (scanner : Scanner) (color : Bool) (path : Text) (contents : FileContents) :
    Outcome :=
  match contents.read path with
  | .error message =>
    { status := 1, messages := "failed to read file: " ++ message ++ [Text.newline] }
  | .ok source =>
    match scanner.scan source with
    | .ok tokens =>
      { status := 0
        output := tokenListing tokens
        summary := some (.scanned path tokens.length) }
    | .error error =>
      { status := 1
        messages :=
          match Diagnostic.ofScanError? error with
          | some diagnostic => Reporter.report ⟨path, source, color⟩ diagnostic
          | none => path ++ ": " ++ error.message ++ [Text.newline]
        summary := some .failed }

/-- Lists the rules or scans the file among the arguments. -/
def runWith {m : Type → Type} [Monad m] (read : Text → m FileContents) (color : Bool)
    (options : Options) (arguments : List Text) (table : KeywordTable) : m Outcome :=
  match Scanner.build (some table) Rule.defaults with
  | .error error =>
    pure { status := 1, messages := "failed to build lexer: " ++ error.message ++ [Text.newline] }
  | .ok scanner =>
    if options.rules then
      pure { status := 0, output := ruleListing (scanner.registry.rules.map CheckedRule.rule) }
    else
      match arguments with
      | [path] => do
        let contents ← read path
        pure (scanFile scanner color path contents)
      | _ => pure (misuse none)

/-- Runs the command with its arguments; `read` reads the files it needs. -/
def run {m : Type → Type} [Monad m] (read : Text → m FileContents) (color : Bool)
    (arguments : List Text) : m Outcome :=
  match Options.read arguments {} with
  | .error fault => pure (misuse fault.message?)
  | .ok (options, arguments) =>
    if options.keywords.isEmpty then runWith read color options arguments .default
    else do
      let contents ← read options.keywords
      match loadTable options.keywords contents with
      | .error message => pure (badTable color options.keywords message)
      | .ok table => runWith read color options arguments table

end Aml.Command
