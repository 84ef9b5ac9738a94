import Mathlib
import Aml.Pattern.Match

/-!
# Laws of runs

A run never reports a match longer than the characters it reads (`Program.match?_le`). At a place
that loops over characters with a property before it may end the match, a run takes every such
character in front of it (`Program.Loops.run`), because the loop is preferred to the end.
-/
namespace Aml

/-- A set of one character contains only it. -/
@[simp]
theorem CharSet.contains_single (character other : Char) :
    (CharSet.single character.toNat).contains other.toNat = decide (other = character) := by
  rw [CharSet.single, CharSet.contains, ← Bool.decide_and, decide_eq_decide, ← Char.toNat_inj]
  omega

namespace Program

/-- The match found is within the characters read, if the one known before is. -/
theorem run_le (program : Program) {characters : List Character} {before : Option Character}
    {places : List Nat} {length : Nat} {best : Option Nat} {found : Nat}
    (bound : ∀ earlier ∈ best, earlier ≤ length)
    (result : program.run before characters places length best = some found) :
    found ≤ length + characters.length := by
  induction characters generalizing before places length best with
  | nil =>
    rw [run] at result
    split at result
    · obtain rfl := Option.some.inj result
      exact Nat.le_add_right _ _
    · exact Nat.le_add_right_of_le (bound found result)
  | cons character rest ih =>
    rw [run] at result
    have kept : ∀ earlier ∈ (if (List.takeWhile (fun place => !program.isAccepting place)
        (program.reach before (some character) places)).length <
        (program.reach before (some character) places).length then some length else best),
        earlier ≤ length := by
      intro earlier member
      split at member
      · obtain rfl := Option.some.inj member
        exact Nat.le_refl _
      · exact bound earlier member
    rw [List.length_cons]
    split at result
    · have := kept found result
      omega
    · have := ih (fun earlier member => Nat.le_succ_of_le (kept earlier member)) result
      omega

/-- A match is no longer than the text. -/
theorem match?_le {program : Program} {characters : List Character} {length : Nat}
    (result : program.match? characters = some length) : length ≤ characters.length := by
  have bound := program.run_le (by simp) result
  rwa [Nat.zero_add] at bound

/-- At the end of the text a run whose places all wait for a character keeps its match. -/
theorem run_nil_of_waiting {program : Program} {before : Option Character} {places : List Nat}
    {length : Nat} {best : Option Nat} (reached : List Nat)
    (reach : program.reach before none places = reached)
    (waiting : reached.all (!program.isAccepting ·)) :
    program.run before [] places length best = best := by
  rw [run, reach, if_neg]
  simpa using waiting

section Waiting

variable {program : Program} {before : Option Character} {character : Character}
  {rest : List Character} {places : List Nat} {length : Nat} {best : Option Nat}
  (reached : List Nat) (reach : program.reach before (some character) places = reached)
  (waiting : reached.all (!program.isAccepting ·))

include reach waiting

/-- A run ends when none of its places takes the character. -/
theorem run_cons_of_stuck (stuck : reached.filterMap (program.take? character) = []) :
    program.run before (character :: rest) places length best = best := by
  have all : reached.takeWhile (fun place => !program.isAccepting place) = reached :=
    List.takeWhile_eq_self_iff.mpr (List.all_eq_true.mp waiting)
  rw [run, reach, all, if_neg (Nat.lt_irrefl _), stuck]

/-- Places that wait for a character move on by taking it. -/
theorem run_cons_of_moves {next : Nat}
    (moves : reached.filterMap (program.take? character) = [next]) :
    program.run before (character :: rest) places length best =
      program.run (some character) rest [next] (length + 1) best := by
  have all : reached.takeWhile (fun place => !program.isAccepting place) = reached :=
    List.takeWhile_eq_self_iff.mpr (List.all_eq_true.mp waiting)
  rw [run, reach, all, if_neg (Nat.lt_irrefl _), moves]

end Waiting

/-- A place from which a run either takes a character with a property and comes back, or ends the
match, the former preferred. -/
structure Loops (program : Program) (loop : Nat) (holds : Character → Bool) : Prop where
  /-- The two places behind the loop. -/
  places : ∃ body stop,
    (∀ before after, program.reach before after [loop] = [body, stop]) ∧
    program.isAccepting body = false ∧ program.isAccepting stop = true ∧
    ∀ character, program.take? character body = if holds character then some loop else none

/-- A loop takes all characters with its property and then ends the match. -/
theorem Loops.run {program : Program} {loop : Nat} {holds : Character → Bool}
    (loops : program.Loops loop holds) (characters : List Character) (before : Option Character)
    (length : Nat) (best : Option Nat) :
    program.run before characters [loop] length best =
      some (length + (characters.takeWhile holds).length) := by
  obtain ⟨body, stop, reach, continues, stops, takes⟩ := loops
  induction characters generalizing before length best with
  | nil => simp [Program.run, reach, stops]
  | cons character rest ih =>
    by_cases member : holds character
    · have step : program.run before (character :: rest) [loop] length best =
          program.run (some character) rest [loop] (length + 1) (some length) := by
        simp [Program.run, reach, stops, continues, takes, member]
      rw [step, ih, List.takeWhile_cons, if_pos member, List.length_cons]
      congr 1
      omega
    · simp [Program.run, reach, stops, continues, takes, member]

end Program

end Aml
