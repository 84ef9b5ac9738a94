import Aml.Pattern.Program
import Aml.Text.Character

/-!
# Running a program

A run keeps the places at which a match may stand, in order of preference, and moves all of them
past one character at a time. A place that ends a match hides the places after it. The result is
the length of the preferred match from the start of the characters, which for the run are the
start of the text. No place is visited twice between two characters, so a run takes time
proportional to the program and the match.
-/
namespace Aml

/-- Whether a character is a letter, a digit or the underscore of ASCII. -/
def isWordCharacter : Option Character → Bool
  | some character => CharSet.word.contains character.scalar.toNat
  | none => false

/-- Whether an assertion holds between two neighbours, where no neighbour is the end of the text. -/
def Assertion.holds (assertion : Assertion) (before after : Option Character) : Bool :=
  match assertion with
  | .textStart => before.isNone
  | .textEnd => after.isNone
  | .lineStart => before.all (·.scalar = '\n')
  | .lineEnd => after.all (·.scalar = '\n')
  | .wordBoundary => isWordCharacter before != isWordCharacter after
  | .noWordBoundary => isWordCharacter before == isWordCharacter after

namespace Program

/-- Follows splits and assertions from the pending places, most preferred first, and collects
the places that take a character or end a match, latest first. `fuel` bounds the visits. -/
def follow (program : Program) (before after : Option Character) :
    (fuel : Nat) → (pending : List Nat) → (visited : Array Bool) → (places : List Nat) →
    List Nat
  | 0, _, _, places => places
  | _, [], _, places => places
  | fuel + 1, place :: pending, visited, places =>
    if visited.getD place true then program.follow before after fuel pending visited places
    else
      let visited := visited.setIfInBounds place true
      match program.code[place]? with
      | some (.split preferred other) =>
        program.follow before after fuel (preferred :: other :: pending) visited places
      | some (.check assertion next) =>
        let pending := if assertion.holds before after then next :: pending else pending
        program.follow before after fuel pending visited places
      | some _ => program.follow before after fuel pending visited (place :: places)
      | none => program.follow before after fuel pending visited places

/-- The places reached from others without taking a character, in order of preference. -/
def reach (program : Program) (before after : Option Character) (places : List Nat) : List Nat :=
  let size := program.code.size
  (program.follow before after (places.length + 2 * size + 1) places
    (Array.replicate size false) []).reverse

/-- Whether a place ends a match. -/
def isAccepting (program : Program) (place : Nat) : Bool :=
  match program.code[place]? with
  | some .accept => true
  | _ => false

/-- The place after taking a character, if the place takes it. -/
def take? (program : Program) (character : Character) (place : Nat) : Option Nat :=
  match program.code[place]? with
  | some (.consume set next) =>
    if set.contains character.scalar.toNat then some next else none
  | _ => none

/-- Moves the places through the characters; `length` characters have been taken and `best` is
the preferred match so far. -/
def run (program : Program) : (before : Option Character) → List Character →
    (places : List Nat) → (length : Nat) → (best : Option Nat) → Option Nat
  | before, [], places, length, best =>
    let reached := program.reach before none places
    if reached.any program.isAccepting then some length else best
  | before, character :: rest, places, length, best =>
    let reached := program.reach before (some character) places
    let preferred := reached.takeWhile fun place => !program.isAccepting place
    let best := if preferred.length < reached.length then some length else best
    match preferred.filterMap (program.take? character) with
    | [] => best
    | places => program.run (some character) rest places (length + 1) best

/-- The number of characters of the preferred match at the start of a text. -/
def match? (program : Program) (characters : List Character) : Option Nat :=
  program.run none characters [program.entry] 0 none

end Program

end Aml
