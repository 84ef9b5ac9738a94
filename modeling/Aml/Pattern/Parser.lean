import Aml.Pattern.Syntax
import Aml.Text.Character

/-!
# Reading patterns

A pattern is read from left to right with a stack of open groups. Each group keeps its finished
alternatives, the items of the current one, and the options in force outside it, which are
restored when it closes. Reading stops at the first fault and reports it with the part of the
pattern at fault.
-/
namespace Aml

/-- What is wrong with a pattern. -/
inductive PatternFault where
  | missingBracket
  | missingParenthesis
  | unexpectedParenthesis
  | missingRepeatArgument
  | nestedRepeat
  | repeatCount
  | classRange
  | trailingBackslash
  | escapeSequence
  | groupSyntax
  | groupName
  | malformedText
  | nestingDepth
  deriving DecidableEq

/-- The wording of a fault. -/
def PatternFault.wording : PatternFault → String
  | .missingBracket => "missing closing ]"
  | .missingParenthesis => "missing closing )"
  | .unexpectedParenthesis => "unexpected )"
  | .missingRepeatArgument => "missing argument to repetition operator"
  | .nestedRepeat => "invalid nested repetition operator"
  | .repeatCount => "invalid repeat count"
  | .classRange => "invalid character class range"
  | .trailingBackslash => "trailing backslash at end of expression"
  | .escapeSequence => "invalid escape sequence"
  | .groupSyntax => "invalid or unsupported Perl syntax"
  | .groupName => "invalid named capture"
  | .malformedText => "invalid UTF-8"
  | .nestingDepth => "expression nests too deeply"

/-- A fault with the part of the pattern at fault. -/
structure PatternError where
  fault : PatternFault
  part : Text
  deriving DecidableEq

/-- The message of a fault. -/
def PatternError.message (error : PatternError) : Text :=
  "error parsing regexp: " ++ error.fault.wording ++ ": `" ++ error.part ++ "`"

namespace Pattern

/-- The options that a group may switch. -/
structure Options where
  /-- Literals and classes match up to case. -/
  fold : Bool := false
  /-- `^` and `$` match at lines rather than at the text. -/
  multiline : Bool := false
  /-- `.` matches the newline too. -/
  dotAll : Bool := false
  /-- Repetitions take as little as they can unless marked. -/
  lazy : Bool := false
  deriving DecidableEq

/-- An open group, or the pattern as a whole. -/
structure Level where
  /-- Whether the group marks its match. -/
  marks : Bool := false
  /-- The options in force outside the group. -/
  outside : Options := {}
  /-- The finished alternatives, latest first. -/
  alternatives : List Pattern := []
  /-- The items of the current alternative, latest first. -/
  items : List Pattern := []

/-- How far a pattern has been read. -/
structure State where
  options : Options := {}
  /-- The innermost open group. -/
  level : Level := {}
  /-- The groups around it, innermost first. -/
  enclosing : List Level := []
  /-- The pattern from its latest item on, when that item is a repetition. -/
  lastRepeat : Option (List Character) := none

/-- The part of a source before a rest of it. -/
def consumed (source rest : List Character) : Text :=
  Text.ofCharacters (source.take (source.length - rest.length))

/-- Takes one character, which must be well formed. At the end there is only the replacement
character, which has no meaning in a pattern. -/
def next : List Character → Except PatternError (Char × List Character)
  | [] => .ok (Character.replacement, [])
  | character :: rest =>
    if character.isMalformed then
      .error ⟨.malformedText, Text.ofCharacters (character :: rest)⟩
    else .ok (character.scalar, rest)

/-- Refuses a source with a byte outside every character. -/
def requireWellFormed : List Character → Except PatternError Unit
  | [] => .ok ()
  | character :: rest =>
    if character.isMalformed then
      .error ⟨.malformedText, Text.ofCharacters (character :: rest)⟩
    else requireWellFormed rest

/-- Whether a character is an ASCII letter or digit. -/
def isAlphanumeric (character : Char) : Bool :=
  character.isAlphanum

/-- The value of an octal digit at the front of a source. -/
def octalDigit? : List Character → Option (Nat × List Character)
  | character :: rest =>
    if '0' ≤ character.scalar ∧ character.scalar ≤ '7' then
      some (character.scalar.toNat - 48, rest)
    else none
  | [] => none

/-- The value of a hexadecimal digit. -/
def hexDigit? (character : Char) : Option Nat :=
  if '0' ≤ character ∧ character ≤ '9' then some (character.toNat - 48)
  else if 'a' ≤ character ∧ character ≤ 'f' then some (character.toNat - 87)
  else if 'A' ≤ character ∧ character ≤ 'F' then some (character.toNat - 55)
  else none

/-- Reads up to `count` more octal digits. -/
def octalDigits : (count : Nat) → List Character → (value : Nat) → Nat × List Character
  | 0, source, value => (value, source)
  | count + 1, source, value =>
    match octalDigit? source with
    | some (digit, rest) => octalDigits count rest (value * 8 + digit)
    | none => (value, source)

/-- Reads hexadecimal digits up to a closing brace; the left result is where reading stopped at a
fault. -/
def bracedDigits : List Character → (value count : Nat) →
    Except PatternError (Except (List Character) (Nat × List Character))
  | [], _, _ => .ok (.error [])
  | character :: rest, value, count =>
    if character.isMalformed then
      .error ⟨.malformedText, Text.ofCharacters (character :: rest)⟩
    else if character.scalar = '}' then
      .ok (if count = 0 then .error rest else .ok (value, rest))
    else
      match hexDigit? character.scalar with
      | none => .ok (.error rest)
      | some digit =>
        if 0x10FFFF < value * 16 + digit then .ok (.error rest)
        else bracedDigits rest (value * 16 + digit) (count + 1)

/-- The control character that a letter names after a backslash. -/
def namedControl? : Char → Option Nat
  | 'a' => some 7
  | 'f' => some 12
  | 'n' => some 10
  | 'r' => some 13
  | 't' => some 9
  | 'v' => some 11
  | _ => none

/-- Reads an escaped single character, the backslash included. -/
def escape (source : List Character) : Except PatternError (Nat × List Character) := do
  let invalid (rest : List Character) : Except PatternError (Nat × List Character) :=
    .error ⟨.escapeSequence, consumed source rest⟩
  match source.drop 1 with
  | [] => .error ⟨.trailingBackslash, []⟩
  | escaped =>
    let (letter, rest) ← next escaped
    if letter = '0' then .ok (octalDigits 2 rest 0)
    else if '1' ≤ letter ∧ letter ≤ '7' then
      if (octalDigit? rest).isSome then .ok (octalDigits 2 rest (letter.toNat - 48))
      else invalid rest
    else if letter = 'x' then
      match rest with
      | [] => invalid []
      | _ =>
        let (first, rest) ← next rest
        if first = '{' then
          match ← bracedDigits rest 0 0 with
          | .ok found => .ok found
          | .error rest => invalid rest
        else
          let (second, rest) ← next rest
          match hexDigit? first, hexDigit? second with
          | some high, some low => .ok (high * 16 + low, rest)
          | _, _ => invalid rest
    else
      match namedControl? letter with
      | some codePoint => .ok (codePoint, rest)
      | none =>
        if letter.toNat < 0x80 ∧ !isAlphanumeric letter then .ok (letter.toNat, rest)
        else invalid rest

/-- A set of characters under the options: closed under case first, then complemented. -/
def classSet (options : Options) (negated : Bool) (set : CharSet) : CharSet :=
  let set := if options.fold then .folded set else set
  if negated then .complement set else set

/-- Reads a class written as a backslash and a letter, if there is one. -/
def letterClass? (options : Options) : List Character → Option (CharSet × List Character)
  | ⟨'\\', _⟩ :: ⟨letter, _⟩ :: rest =>
    let found := fun negated set => some (classSet options negated set, rest)
    match letter with
    | 'd' => found false CharSet.digits
    | 'D' => found true CharSet.digits
    | 's' => found false CharSet.blanks
    | 'S' => found true CharSet.blanks
    | 'w' => found false CharSet.word
    | 'W' => found true CharSet.word
    | _ => none
  | _ => none

/-- Splits a source after the first occurrence of a character. -/
def splitAfter? (stop : Char) (source : List Character) :
    Option (List Character × List Character) :=
  let before := source.takeWhile (·.scalar ≠ stop)
  match source.drop before.length with
  | [] => none
  | _ :: rest => some (before, rest)

/-- Reads a class given by a character property, if there is one. -/
def propertyClass? (options : Options) (source : List Character) :
    Except PatternError (Option (CharSet × List Character)) := do
  let negated : Option Bool := match source with
    | ⟨'\\', _⟩ :: ⟨'p', _⟩ :: _ => some false
    | ⟨'\\', _⟩ :: ⟨'P', _⟩ :: _ => some true
    | _ => none
  match negated with
  | none => return none
  | some negated =>
    let (letter, rest) ← next (source.drop 2)
    let (name, rest) ←
      if letter = '{' then
        match splitAfter? '}' rest with
        | none => do
          requireWellFormed source
          .error ⟨.classRange, Text.ofCharacters source⟩
        | some (name, rest) => do
          requireWellFormed name
          pure (name.map (·.scalar), rest)
      else pure (if source.length = 2 then [] else [letter], rest)
    let (negated, name) := match name with
      | '^' :: name => (!negated, name)
      | name => (negated, name)
    match CharSet.ofPropertyName? name with
    | some set => return some (classSet options negated set, rest)
    | none => .error ⟨.classRange, consumed source rest⟩

/-- The name of a bracketed class up to its end, and the source after it. -/
def className? : List Character → (name : List Char) → Option (List Char × List Character)
  | ⟨':', _⟩ :: ⟨']', _⟩ :: rest, name => some (name.reverse, rest)
  | character :: rest, name => className? rest (character.scalar :: name)
  | [], _ => none

/-- Reads a class named between `[:` and `:]`, if there is one. -/
def namedClass? (options : Options) (source : List Character) :
    Except PatternError (Option (CharSet × List Character)) :=
  match source with
  | ⟨'[', _⟩ :: ⟨':', _⟩ :: inner =>
    match className? inner [] with
    | none => .ok none
    | some (name, rest) =>
      let (negated, name) := match name with
        | '^' :: name => (true, name)
        | name => (false, name)
      match CharSet.ofClassName? (String.ofList name) with
      | some set => .ok (some (classSet options negated set, rest))
      | none => .error ⟨.classRange, consumed source rest⟩
  | _ => .ok none

/-- Reads one end of a range inside brackets. -/
def classEnd (whole : List Character) : List Character →
    Except PatternError (Nat × List Character)
  | [] => .error ⟨.missingBracket, Text.ofCharacters whole⟩
  | source@(⟨'\\', _⟩ :: _) => escape source
  | source => do
    let (letter, rest) ← next source
    return (letter.toNat, rest)

/-- Reads a character or a range inside brackets. -/
def classRange (options : Options) (whole source : List Character) :
    Except PatternError (CharSet × List Character) := do
  let (low, rest) ← classEnd whole source
  match rest with
  | ⟨'-', _⟩ :: stop :: after =>
    if stop.scalar = ']' then return (classSet options false (.single low), rest)
    else
      let (high, rest) ← classEnd whole (stop :: after)
      if high < low then .error ⟨.classRange, consumed source rest⟩
      else return (classSet options false (.range low high), rest)
  | _ => return (classSet options false (.single low), rest)

/-- Reads the items of a bracketed class up to its end, at most `fuel` of them. -/
def classItems (options : Options) (whole : List Character) :
    (fuel : Nat) → (first : Bool) → List Character → List CharSet →
    Except PatternError (List CharSet × List Character)
  | 0, _, _, _ => .error ⟨.missingBracket, Text.ofCharacters whole⟩
  | fuel + 1, first, source, items => do
    match source, first with
    | ⟨']', _⟩ :: rest, false => return (items.reverse, rest)
    | _, _ =>
      match ← namedClass? options source with
      | some (set, rest) => classItems options whole fuel false rest (set :: items)
      | none =>
        match ← propertyClass? options source with
        | some (set, rest) => classItems options whole fuel false rest (set :: items)
        | none =>
          match letterClass? options source with
          | some (set, rest) => classItems options whole fuel false rest (set :: items)
          | none =>
            let (set, rest) ← classRange options whole source
            classItems options whole fuel false rest (set :: items)

/-- Reads a bracketed class, the opening bracket included. -/
def bracketed (options : Options) (source : List Character) :
    Except PatternError (CharSet × List Character) := do
  let (negated, inner) := match source.drop 1 with
    | ⟨'^', _⟩ :: inner => (true, inner)
    | inner => (false, inner)
  let (items, rest) ← classItems options source (inner.length + 1) true inner []
  let set := CharSet.unions items
  return (if negated then .complement set else set, rest)

/-- Reads a count without leading zeros; a count past eight digits is beyond every limit. -/
def count? (source : List Character) : Option (Nat × List Character) :=
  let digits := (source.map (·.scalar)).takeWhile Char.isDigit
  match digits with
  | [] => none
  | '0' :: _ :: _ => none
  | _ =>
    let value := digits.foldl (fun value digit =>
      if value < 100000000 then value * 10 + (digit.toNat - 48) else value) 0
    some (value, source.drop digits.length)

/-- Reads the counts of a repetition in braces, the opening brace included. -/
def counts? (source : List Character) : Option (Nat × Option Nat × List Character) := do
  let (least, rest) ← count? (source.drop 1)
  match rest with
  | ⟨'}', _⟩ :: rest => some (least, some least, rest)
  | ⟨',', _⟩ :: ⟨'}', _⟩ :: rest => some (least, none, rest)
  | ⟨',', _⟩ :: rest =>
    let (most, rest) ← count? rest
    match rest with
    | ⟨'}', _⟩ :: rest => some (least, some most, rest)
    | _ => none
  | _ => none

namespace State

/-- Adds an item to the current alternative. -/
def push (state : State) (item : Pattern) : State :=
  { state with level := { state.level with items := item :: state.level.items } }

/-- Adds a literal under the options in force. -/
def literal (state : State) (codePoint : Nat) : State :=
  state.push (.literal codePoint state.options.fold)

/-- Adds a sequence of literals, each of which must be well formed. -/
def literals (state : State) : List Character → Except PatternError State
  | [] => .ok state
  | character :: rest =>
    if character.isMalformed then
      .error ⟨.malformedText, Text.ofCharacters (character :: rest)⟩
    else (state.literal character.scalar.toNat).literals rest

/-- Opens a group, remembering the options in force before it. -/
def openGroup (state : State) (marks : Bool) (options : Options) : State where
  options := options
  level := { marks := marks, outside := state.options }
  enclosing := state.level :: state.enclosing

/-- Starts the next alternative of the innermost group. -/
def alternate (state : State) : State :=
  let alternative := ofSequence state.level.items.reverse
  { state with level :=
    { state.level with alternatives := alternative :: state.level.alternatives, items := [] } }

/-- The pattern of the innermost group. -/
def body (state : State) : Pattern :=
  let alternative := ofSequence state.level.items.reverse
  ofChoices (alternative :: state.level.alternatives).reverse

/-- Closes the innermost group. -/
def closeGroup (whole : Text) (state : State) : Except PatternError State :=
  match state.enclosing with
  | [] => .error ⟨.unexpectedParenthesis, whole⟩
  | level :: enclosing =>
    let item := if state.level.marks then .group state.body else state.body
    if heightLimit < item.height then .error ⟨.nestingDepth, whole⟩
    else
      let outer : State := ⟨state.level.outside, level, enclosing, none⟩
      .ok (outer.push item)

/-- Applies a repetition to the latest item; `source` starts at the operator and `rest` after
it. -/
def repetition (whole : Text) (state : State) (source rest : List Character)
    (apply : Pattern → Bool → Pattern) : Except PatternError (State × List Character) :=
  let (lazy, rest) := match rest with
    | ⟨'?', _⟩ :: rest => (!state.options.lazy, rest)
    | rest => (state.options.lazy, rest)
  match state.lastRepeat with
  | some start => .error ⟨.nestedRepeat, consumed start rest⟩
  | none =>
    match state.level.items with
    | [] => .error ⟨.missingRepeatArgument, consumed source rest⟩
    | item :: items =>
      let repeated := apply item !lazy
      if heightLimit < repeated.height then .error ⟨.nestingDepth, whole⟩
      else if !repeated.fitsRepeats repeatLimit then .error ⟨.repeatCount, consumed source rest⟩
      else
        let level := { state.level with items := repeated :: items }
        .ok ({ state with level := level, lastRepeat := some source }, rest)

end State

/-- Reads the letters of an option group after `(?`: the new state, or where the fault lies. -/
def optionLetters (state : State) : (options : Options) → (negated seen : Bool) →
    List Character → Except PatternError (Except (List Character) (State × List Character))
  | _, _, _, [] => .ok (.error [])
  | options, negated, seen, character :: rest =>
    if character.isMalformed then
      .error ⟨.malformedText, Text.ofCharacters (character :: rest)⟩
    else
      match character.scalar with
      | 'i' => optionLetters state { options with fold := !negated } negated true rest
      | 'm' => optionLetters state { options with multiline := !negated } negated true rest
      | 's' => optionLetters state { options with dotAll := !negated } negated true rest
      | 'U' => optionLetters state { options with lazy := !negated } negated true rest
      | '-' => if negated then .ok (.error rest) else optionLetters state options true false rest
      | ':' =>
        if negated && !seen then .ok (.error rest)
        else .ok (.ok (state.openGroup false options, rest))
      | ')' =>
        if negated && !seen then .ok (.error rest)
        else .ok (.ok ({ state with options := options }, rest))
      | _ => .ok (.error rest)

/-- Reads the name of a marked group after its opening angle bracket. -/
def groupName (state : State) (source inner : List Character) :
    Except PatternError (State × List Character) := do
  match splitAfter? '>' inner with
  | none =>
    requireWellFormed source
    .error ⟨.groupName, Text.ofCharacters source⟩
  | some (name, rest) =>
    requireWellFormed name
    if name ≠ [] ∧ name.all (fun character =>
        character.scalar = '_' || isAlphanumeric character.scalar) then
      return (state.openGroup true state.options, rest)
    else .error ⟨.groupName, consumed source rest⟩

/-- Reads what follows `(?`, from the parenthesis on. -/
def specialGroup (state : State) (source : List Character) :
    Except PatternError (State × List Character) := do
  match source with
  | _ :: _ :: ⟨'P', _⟩ :: ⟨'<', _⟩ :: character :: inner =>
    groupName state source (character :: inner)
  | _ :: _ :: ⟨'<', _⟩ :: character :: inner => groupName state source (character :: inner)
  | _ =>
    match ← optionLetters state state.options false false (source.drop 2) with
    | .ok found => return found
    | .error rest => .error ⟨.groupSyntax, consumed source rest⟩

/-- The text between `\Q` and `\E`, which is taken literally, and the source after it. -/
def quotedLiterals : List Character → (quoted : List Character) →
    List Character × List Character
  | ⟨'\\', _⟩ :: ⟨'E', _⟩ :: rest, quoted => (quoted.reverse, rest)
  | character :: rest, quoted => quotedLiterals rest (character :: quoted)
  | [], quoted => (quoted.reverse, [])

/-- Reads what follows a backslash outside brackets, the backslash included. -/
def backslash (state : State) (source : List Character) :
    Except PatternError (State × List Character) := do
  let ordinary : Except PatternError (State × List Character) := do
    match ← propertyClass? state.options source with
    | some (set, rest) => return (state.push (.oneOf set), rest)
    | none =>
      match letterClass? state.options source with
      | some (set, rest) => return (state.push (.oneOf set), rest)
      | none =>
        let (codePoint, rest) ← escape source
        return (state.literal codePoint, rest)
  match source with
  | _ :: ⟨letter, _⟩ :: rest =>
    match letter with
    | 'A' => return (state.push (.anchor .textStart), rest)
    | 'b' => return (state.push (.anchor .wordBoundary), rest)
    | 'B' => return (state.push (.anchor .noWordBoundary), rest)
    | 'C' => .error ⟨.escapeSequence, consumed source rest⟩
    | 'Q' =>
      let (quoted, rest) := quotedLiterals rest []
      return (← state.literals quoted, rest)
    | 'z' => return (state.push (.anchor .textEnd), rest)
    | _ => ordinary
  | _ => ordinary

/-- Reads one item or operator at the front of a non-empty source. -/
def step (whole : Text) (state : State) (character : Character) (rest : List Character) :
    Except PatternError (State × List Character) := do
  let source := character :: rest
  let plain : State := { state with lastRepeat := none }
  match character.scalar with
  | '(' =>
    match rest with
    | ⟨'?', _⟩ :: _ => specialGroup plain source
    | _ => return (plain.openGroup true plain.options, rest)
  | '|' => return (plain.alternate, rest)
  | ')' => return (← plain.closeGroup whole, rest)
  | '^' =>
    let assertion := if plain.options.multiline then .lineStart else .textStart
    return (plain.push (.anchor assertion), rest)
  | '$' =>
    let assertion := if plain.options.multiline then .lineEnd else .textEnd
    return (plain.push (.anchor assertion), rest)
  | '.' =>
    let set := if plain.options.dotAll then CharSet.all else CharSet.notNewline
    return (plain.push (.oneOf set), rest)
  | '[' =>
    let (set, rest) ← bracketed plain.options source
    return (plain.push (.oneOf set), rest)
  | '*' => state.repetition whole source rest .star
  | '+' => state.repetition whole source rest .plus
  | '?' => state.repetition whole source rest .optional
  | '{' =>
    match counts? source with
    | none => return (plain.literal '{'.toNat, rest)
    | some (least, most, rest) =>
      if repeatLimit < least ∨ repeatLimit < most.getD 0 ∨ most.getD least < least then
        .error ⟨.repeatCount, consumed source rest⟩
      else state.repetition whole source rest fun body greedy => .counted body least most greedy
  | '\\' => backslash plain source
  | _ =>
    let (letter, rest) ← next source
    return (plain.literal letter.toNat, rest)

/-- Reads a source to its end, in at most `fuel` steps. -/
def parseLoop (whole : Text) : (fuel : Nat) → State → List Character →
    Except PatternError Pattern
  | _, state, [] =>
    match state.enclosing with
    | [] =>
      if heightLimit < state.body.height then .error ⟨.nestingDepth, whole⟩ else .ok state.body
    | _ => .error ⟨.missingParenthesis, whole⟩
  | 0, _, _ => .error ⟨.missingParenthesis, whole⟩
  | fuel + 1, state, character :: rest => do
    let (state, rest) ← step whole state character rest
    parseLoop whole fuel state rest

/-- Reads a pattern. -/
def parse (text : Text) : Except PatternError Pattern :=
  let source := text.characters
  parseLoop text source.length {} source

end Pattern

end Aml
