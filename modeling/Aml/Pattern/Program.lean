import Aml.Pattern.Syntax

/-!
# Matching programs

A pattern is compiled to a program of instructions that name their successors. Alternatives are
listed in order of preference, so a run that follows the first successor of each `split` before
the second explores the matches in order of preference. A repetition of a pattern that may match
the empty text is compiled as an optional repetition of at least one, which gives an empty round
its right preference.
-/
namespace Aml

/-- One step of a program. -/
inductive Instruction where
  /-- Takes one character of a set. -/
  | consume (set : CharSet) (next : Nat)
  /-- Goes on at either place, the first one preferred. -/
  | split (preferred other : Nat)
  /-- Goes on when the assertion holds between the neighbouring characters. -/
  | check (assertion : Assertion) (next : Nat)
  /-- Ends a match. -/
  | accept

/-- Instructions with the place where a run starts. -/
structure Program where
  code : Array Instruction
  entry : Nat

namespace Pattern

/-- Code under construction with the place that starts the part added last. -/
structure Fragment where
  code : Array Instruction
  entry : Nat

/-- A branch that prefers the body when it is greedy and what follows otherwise. -/
def branch (greedy : Bool) (body next : Nat) : Instruction :=
  if greedy then .split body next else .split next body

/-- Adds an instruction and enters there. -/
def emit (code : Array Instruction) (instruction : Instruction) : Fragment :=
  ⟨code.push instruction, code.size⟩

/-- At least one round of a body: after each round the loop may enter it again. -/
def emitLoop (body : Nat → Array Instruction → Fragment) (greedy : Bool) (next : Nat)
    (code : Array Instruction) : Fragment :=
  let loop := code.size
  let inner := body loop (code.push .accept)
  ⟨inner.code.setIfInBounds loop (branch greedy inner.entry next), inner.entry⟩

/-- At most one round of a body. -/
def emitOptional (body : Nat → Array Instruction → Fragment) (greedy : Bool) (next : Nat)
    (code : Array Instruction) : Fragment :=
  let inner := body next code
  emit inner.code (branch greedy inner.entry next)

/-- Any number of rounds of a body. -/
def emitStar (body : Nat → Array Instruction → Fragment) (nullable greedy : Bool) (next : Nat)
    (code : Array Instruction) : Fragment :=
  if nullable then emitOptional (emitLoop body greedy) greedy next code
  else
    let looped := emitLoop body greedy next code
    ⟨looped.code, code.size⟩

/-- A body `count` times in a row. -/
def emitTimes (body : Nat → Array Instruction → Fragment) :
    (count : Nat) → (next : Nat) → Array Instruction → Fragment
  | 0, next, code => ⟨code, next⟩
  | count + 1, next, code =>
    let later := body next code
    emitTimes body count later.entry later.code

/-- A body at most `count` times in a row, each round inside the one before it. -/
def emitUpTo (body : Nat → Array Instruction → Fragment) (greedy : Bool) (next : Nat) :
    (count : Nat) → (inside : Nat) → Array Instruction → Fragment
  | 0, inside, code => ⟨code, inside⟩
  | count + 1, inside, code =>
    let inner := body inside code
    let outer := emit inner.code (branch greedy inner.entry next)
    emitUpTo body greedy next count outer.entry outer.code

/-- Adds the code of a pattern that goes on at `next`. -/
def emitPattern : Pattern → (next : Nat) → Array Instruction → Fragment
  | .empty, next, code => ⟨code, next⟩
  | .literal codePoint folded, next, code =>
    let set := CharSet.single codePoint
    emit code (.consume (if folded then .folded set else set) next)
  | .oneOf choices, next, code => emit code (.consume choices next)
  | .anchor assertion, next, code => emit code (.check assertion next)
  | .group body, next, code => body.emitPattern next code
  | .sequence first second, next, code =>
    let later := second.emitPattern next code
    first.emitPattern later.entry later.code
  | .choice first second, next, code =>
    let later := second.emitPattern next code
    let earlier := first.emitPattern next later.code
    emit earlier.code (.split earlier.entry later.entry)
  | .star body greedy, next, code =>
    emitStar body.emitPattern body.isNullable greedy next code
  | .plus body greedy, next, code => emitLoop body.emitPattern greedy next code
  | .optional body greedy, next, code => emitOptional body.emitPattern greedy next code
  | .counted body least none greedy, next, code =>
    match least with
    | 0 => emitStar body.emitPattern body.isNullable greedy next code
    | rounds + 1 =>
      let looped := emitLoop body.emitPattern greedy next code
      emitTimes body.emitPattern rounds looped.entry looped.code
  | .counted body least (some most) greedy, next, code =>
    let upTo := emitUpTo body.emitPattern greedy next (most - least) next code
    emitTimes body.emitPattern least upTo.entry upTo.code

/-- The program of a pattern; its first instruction ends the match. -/
def compile (pattern : Pattern) : Program :=
  let fragment := pattern.emitPattern 0 #[.accept]
  ⟨fragment.code, fragment.entry⟩

end Pattern

end Aml
