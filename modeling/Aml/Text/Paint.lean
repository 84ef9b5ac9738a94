import Aml.Text.Basic

/-!
# Coloured text

On a terminal, text is painted by a control sequence in front of it that switches attributes on
and one after it that switches each of them off. Without colour the text stands alone, so painting
never changes what a reader of the plain text sees.
-/
namespace Aml

/-- A display attribute of a terminal. -/
inductive Attribute where
  | bold | faint | red | green | yellow | blue | cyan
  deriving DecidableEq

namespace Attribute

/-- The number that switches an attribute on. -/
def on : Attribute → Nat
  | .bold => 1
  | .faint => 2
  | .red => 31
  | .green => 32
  | .yellow => 33
  | .blue => 34
  | .cyan => 36

/-- The number that switches an attribute off. -/
def off : Attribute → Nat
  | .bold => 22
  | .faint => 22
  | _ => 0

end Attribute

/-- The control sequence with the given numbers. -/
def controlSequence (numbers : List Nat) : Text :=
  "\x1b[" ++ Text.joined ";" (numbers.map Text.ofNat) ++ "m"

/-- A text under the given attributes, or the text alone when colour is off. -/
def paint (color : Bool) (attributes : List Attribute) (text : Text) : Text :=
  if color then
    controlSequence (attributes.map Attribute.on) ++ text
      ++ controlSequence (attributes.map Attribute.off)
  else text

end Aml
