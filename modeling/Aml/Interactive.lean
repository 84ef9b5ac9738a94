import Aml.Diagnostic.Lexical
import Aml.Diagnostic.Report
import Aml.Scan.Stream

/-!
# The interactive tokenizer

Each line of the input is scanned by itself, and its tokens or its error are printed after a
prompt. A carriage return at the end of a line does not belong to it. A line of 65536 bytes or more
is not read, and ends the session with an error.
-/
namespace Aml.Interactive

/-- What is printed when a line is awaited. -/
def prompt : String := ">> "

/-- The number of bytes that no line may reach. -/
def lineLimit : Nat := 65536

/-- Why the input cannot be read to its end. -/
inductive ReadFault where
  | lineTooLong
  deriving DecidableEq

/-- The message of a fault. -/
def ReadFault.message : ReadFault → String
  | .lineTooLong => "bufio.Scanner: token too long"

/-- A line without the carriage return at its end. -/
def withoutReturn (line : Text) : Text :=
  if line.getLast? = some 13 then line.dropLast else line

/-- The lines of an input; the last one counts only when it is not empty. -/
def inputLines (input : Text) : List Text :=
  let lines := input.lines
  if lines.getLast? = some [] then lines.dropLast else lines

/-- What is printed for one line. -/
def respond (scanner : Scanner) (color : Bool) (line : Text) : Text :=
  match scanner.scan line with
  | .ok tokens => tokens.flatMap fun token => token.render ++ [Text.newline]
  | .error error =>
    match Diagnostic.ofScanError? error with
    | some diagnostic => Reporter.report ⟨"<repl>", line, color⟩ diagnostic
    | none => paint color [.red] error.message ++ [Text.newline]

/-- What is printed for the lines of an input, with the fault that ends it, if there is one. -/
def runLines (scanner : Scanner) (color : Bool) : List Text → (printed : List Text) →
    Text × Option ReadFault
  | [], printed => ((Text.ofString "\n" :: prompt :: printed).reverse.flatten, none)
  | line :: rest, printed =>
    if lineLimit ≤ line.length then
      ((Text.ofString "\n" :: prompt :: printed).reverse.flatten, some .lineTooLong)
    else
      runLines scanner color rest (respond scanner color (withoutReturn line) :: prompt :: printed)

/-- What a session prints for an input. -/
def run (scanner : Scanner) (color : Bool) (input : Text) : Text × Option ReadFault :=
  runLines scanner color (inputLines input) []

end Aml.Interactive
