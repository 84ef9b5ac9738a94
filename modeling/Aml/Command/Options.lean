import Aml.Number.Integer
import Aml.Text.Quote

/-!
# Options of the command

Options stand in front of the other arguments. An option starts with one or two hyphens, and its
value follows after an equals sign or, unless the option is a switch, as the next argument. The
first argument that is no option ends the options, and so does a pair of hyphens, which is dropped.
The last value of an option counts.
-/
namespace Aml.Command

/-- What the command is asked to do. -/
structure Options where
  /-- The path of the keyword table; empty for the default table. -/
  keywords : Text := []
  /-- Whether to list the rules. -/
  rules : Bool := false
  /-- How much is logged. -/
  verbosity : Int := 0
  deriving DecidableEq

/-- Why options cannot be read. -/
inductive OptionFault where
  /-- The argument has the start of an option and no name. -/
  | nameless (argument : Text)
  | unknown (name : Text)
  | valueless (name : Text)
  | notBoolean (value name : Text)
  | notInteger (value name : Text) (fault : NumeralFault)
  /-- The option asks for help. -/
  | help
  deriving DecidableEq

/-- The message of a fault; a call for help has none. -/
def OptionFault.message? : OptionFault → Option Text
  | .nameless argument => some ("bad flag syntax: " ++ argument)
  | .unknown name => some ("flag provided but not defined: -" ++ name)
  | .valueless name => some ("flag needs an argument: -" ++ name)
  | .notBoolean value name =>
    some ("invalid boolean value " ++ value.quoted ++ " for -" ++ name ++ ": parse error")
  | .notInteger value name fault =>
    let reason : Text := match fault with
      | .malformed => "parse error"
      | .outOfRange => "value out of range"
    some ("invalid value " ++ value.quoted ++ " for flag -" ++ name ++ ": " ++ reason)
  | .help => none

namespace Options

/-- The byte that starts options. -/
def hyphen : UInt8 := 45

/-- The byte between the name of an option and its value. -/
def equals : UInt8 := 61

/-- What an argument is. -/
inductive Argument where
  /-- An option with the value that is attached to it. -/
  | named (name : Text) (value : Option Text)
  /-- An option without a name. -/
  | nameless
  /-- A pair of hyphens. -/
  | terminator
  | operand
  deriving DecidableEq

/-- Splits an option without its hyphens into its name, which is not empty, and its value. -/
def named (first : UInt8) (rest : Text) : Argument :=
  let name := rest.takeWhile (· ≠ equals)
  match rest.drop name.length with
  | [] => .named (first :: name) none
  | _ :: value => .named (first :: name) (some value)

/-- What follows the hyphens of an option. -/
def afterHyphens : Text → Argument
  | [] => .nameless
  | first :: rest => if first = hyphen ∨ first = equals then .nameless else named first rest

/-- Tells what an argument is. -/
def classify : Text → Argument
  | first :: second :: rest =>
    if first ≠ hyphen then .operand
    else if second ≠ hyphen then afterHyphens (second :: rest)
    else if rest.isEmpty then .terminator
    else afterHyphens rest
  | _ => .operand

/-- The truth value that a text writes. -/
def boolean? (text : Text) : Option Bool :=
  let isOneOf (words : List String) : Bool := words.any fun word => Text.ofString word = text
  if isOneOf ["1", "t", "T", "TRUE", "true", "True"] then some true
  else if isOneOf ["0", "f", "F", "FALSE", "false", "False"] then some false
  else none

/-- Sets the option for the rules. -/
def setRules (options : Options) (name : Text) (value : Option Text) :
    Except OptionFault Options :=
  match value with
  | none => .ok { options with rules := true }
  | some value =>
    match boolean? value with
    | some rules => .ok { options with rules }
    | none => .error (.notBoolean value name)

/-- The options that take a value. -/
inductive Valued where
  | keywords
  | verbosity
  deriving DecidableEq

/-- Sets an option that takes a value. -/
def setValued (options : Options) (valued : Valued) (name value : Text) :
    Except OptionFault Options :=
  match valued with
  | .keywords => .ok { options with keywords := value }
  | .verbosity =>
    match Numeral.prefixed value with
    | .ok verbosity => .ok { options with verbosity }
    | .error fault => .error (.notInteger value name fault)

/-- The option with a name: a switch, an option that takes a value, or none. -/
def ofName (name : Text) : Except OptionFault (Option Valued) :=
  if name = Text.ofString "rules" then .ok none
  else if name = Text.ofString "keywords" then .ok (some .keywords)
  else if name = Text.ofString "v" then .ok (some .verbosity)
  else if name = Text.ofString "help" ∨ name = Text.ofString "h" then .error .help
  else .error (.unknown name)

/-- Reads options in front of other arguments, on from the options read so far. -/
def read : List Text → Options → Except OptionFault (Options × List Text)
  | [], options => .ok (options, [])
  | argument :: rest, options =>
    match classify argument with
    | .operand => .ok (options, argument :: rest)
    | .terminator => .ok (options, rest)
    | .nameless => .error (.nameless argument)
    | .named name value =>
      match ofName name with
      | .error fault => .error fault
      | .ok none =>
        match options.setRules name value with
        | .ok options => read rest options
        | .error fault => .error fault
      | .ok (some valued) =>
        match value, rest with
        | some value, rest =>
          match options.setValued valued name value with
          | .ok options => read rest options
          | .error fault => .error fault
        | none, value :: rest =>
          match options.setValued valued name value with
          | .ok options => read rest options
          | .error fault => .error fault
        | none, [] => .error (.valueless name)

end Options

end Aml.Command
