import Aml.Position
import Aml.Rule.Registry

/-!
# Cutting a source into pieces

At each cursor the rules of a registry are tried in order, and the first one that matches takes
its match. The matches follow each other without gaps from the start of the source, so the pieces
concatenate to the source, or to the part of it before the first character that no rule takes. A
match of length zero, and a rule that refuses to be tried, stop the cut as well. Neither the
keyword table nor the converters have a say in where the pieces end.

A cut that stops tells where. Its fault has the form that any engine may give, which need not tell
a place; what else a fault says is only shown when its place is of no use.
-/
namespace Aml

/-- A match of a rule in a source. -/
structure Piece where
  rule : Rule
  lexeme : Text
  /-- The place of the first byte. -/
  position : Position

/-- Why an engine stops. -/
structure EngineFault where
  /-- The place where it stops, if it tells. -/
  position? : Option Position
  /-- What it says. -/
  message : Text := []

/-- How a cut ends. -/
inductive Ending where
  /-- Every character belongs to a piece. -/
  | finished
  | stopped (fault : EngineFault)

/-- No piece starts at a place. -/
def Ending.stoppedAt (position : Position) : Ending :=
  .stopped { position? := some position }

/-- A source cut into pieces. -/
structure Cut where
  pieces : List Piece
  ending : Ending

namespace Registry

/-- The first rule that matches at the start of the characters, with the length of its match, if
the rules before it can all be tried. -/
def choose : List CheckedRule → List Character → Option (Rule × Nat)
  | [], _ => none
  | checked :: rest, characters =>
    match checked.matcher.attempt characters with
    | .matched length => some (checked.rule, length)
    | .missed => choose rest characters
    | .refused => none

/-- Cuts the characters from a position on, with the pieces before it latest first. -/
def cutFrom (registry : Registry) : (fuel : Nat) → List Character → Position →
    (pieces : List Piece) → Cut
  | _, [], _, pieces => ⟨pieces.reverse, .finished⟩
  | 0, _ :: _, position, pieces => ⟨pieces.reverse, .stoppedAt position⟩
  | fuel + 1, character :: rest, position, pieces =>
    match choose registry.rules (character :: rest) with
    | none => ⟨pieces.reverse, .stoppedAt position⟩
    | some (_, 0) => ⟨pieces.reverse, .stoppedAt position⟩
    | some (rule, length + 1) =>
      let lexeme := Text.ofCharacters (character :: rest.take length)
      cutFrom registry fuel (rest.drop length) (position.advance lexeme)
        (⟨rule, lexeme, position⟩ :: pieces)

/-- Cuts a source into pieces. -/
def cut (registry : Registry) (source : Text) : Cut :=
  let characters := source.characters
  registry.cutFrom characters.length characters .start []

end Registry

end Aml
