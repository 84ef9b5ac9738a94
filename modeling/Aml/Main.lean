import Aml.Command.Run
import Aml.Duration

/-!
# The command line

Reads files and the clock for a run of the command and writes what it prints.
-/
namespace Aml.Command

/-- Reads a file. -/
def readFile (path : Text) : IO FileContents := do
  match String.fromUTF8? ⟨path.toArray⟩ with
  | none => return .missing
  | some path =>
    try
      let bytes ← IO.FS.readBinFile path
      return .text bytes.toList
    catch error =>
      match error with
      | .noFileOrDirectory _ _ _ => return .missing
      | .permissionDenied _ _ _ => return .denied
      | _ => return .directory

/-- Whether the standard output is a terminal that shows colours. -/
def showsColor : IO Bool := do
  let terminal ← (← IO.getStdout).isTty
  let refused ← IO.getEnv "NO_COLOR"
  let kind ← IO.getEnv "TERM"
  return terminal && refused.getD "" == "" && kind != some "dumb"

/-- Writes a text to a stream. -/
def write (stream : IO.FS.Stream) (text : Text) : IO Unit :=
  stream.write ⟨text.toArray⟩

end Aml.Command

open Aml in
/-- Runs the command. -/
def main (arguments : List String) : IO UInt32 := do
  let color ← Command.showsColor
  let started ← IO.monoNanosNow
  let outcome ← Command.run Command.readFile color (arguments.map Text.ofString)
  let elapsed := Duration.render ((← IO.monoNanosNow) - started : Nat)
  Command.write (← IO.getStdout) outcome.output
  Command.write (← IO.getStderr) (outcome.errors color elapsed)
  return outcome.status.toUInt32
