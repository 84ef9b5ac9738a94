import Mathlib
import Aml.Proofs.Pattern.Run

/-!
# What a program can match

A run keeps its places in order of preference and visits each of them once between two characters.
`Program.Finds` says what a program can match from a place with neither: a match is a series of
silent steps and taken characters that ends at an accepting place. Following the silent steps
visits every place that they lead to (`Program.mem_reach_iff`), because the places visited and those
pending are closed under them and each visit uses up its share of the fuel. A run therefore finds
nothing only where nothing can be found (`Program.not_finds_of_match?_eq_none`), and what it finds
is a match of the program (`Program.finds_of_match?_eq_some`).
-/
namespace Aml.Program

variable {program : Program} {before after : Option Character}

/-! ## Silent steps -/

/-- The places that follow a place without a character between two neighbours. -/
def silent (program : Program) (before after : Option Character) (place : Nat) : List Nat :=
  match program.code[place]? with
  | some (.split preferred other) => [preferred, other]
  | some (.check assertion next) => if assertion.holds before after then [next] else []
  | _ => []

/-- Whether a place takes a character or ends a match. -/
def waits (program : Program) (place : Nat) : Bool :=
  match program.code[place]? with
  | some (.consume _ _) => true
  | some .accept => true
  | _ => false

/-- A place leads to another one by silent steps. -/
def Leads (program : Program) (before after : Option Character) : Nat → Nat → Prop :=
  Relation.ReflTransGen fun place next => next ∈ program.silent before after place

/-- A place is followed by at most two others. -/
theorem length_silent_le (program : Program) (before after : Option Character) (place : Nat) :
    (program.silent before after place).length ≤ 2 := by
  unfold silent
  split
  · simp
  · split <;> simp
  · simp

/-- With no place pending everything is collected. -/
theorem follow_nil (program : Program) (before after : Option Character) (fuel : Nat)
    (visited : Array Bool) (places : List Nat) :
    program.follow before after fuel [] visited places = places := by
  cases fuel <;> simp only [follow]

/-- A visit of a place that is not visited yet puts its followers before the pending places, and
keeps it if it waits. -/
theorem follow_cons (program : Program) (before after : Option Character) (fuel place : Nat)
    (pending : List Nat) (visited : Array Bool) (places : List Nat) :
    program.follow before after (fuel + 1) (place :: pending) visited places =
      if visited.getD place true then program.follow before after fuel pending visited places
      else program.follow before after fuel (program.silent before after place ++ pending)
        (visited.setIfInBounds place true)
        (if program.waits place then place :: places else places) := by
  rw [follow]
  by_cases known : visited.getD place true = true
  · rw [if_pos known, if_pos known]
  · rw [if_neg known, if_neg known]
    unfold silent waits
    cases program.code[place]? with
    | none => rfl
    | some instruction =>
      cases instruction with
      | consume | split | accept => rfl
      | check assertion next =>
        dsimp only
        split <;> rfl

/-- Everything collected was collected before or follows from a pending place. -/
theorem leads_of_mem_follow {fuel : Nat} {pending : List Nat} {visited : Array Bool}
    {places : List Nat} {target : Nat}
    (found : target ∈ program.follow before after fuel pending visited places) :
    target ∈ places ∨ ∃ place ∈ pending, program.Leads before after place target := by
  induction fuel generalizing pending visited places with
  | zero => exact .inl (by rwa [follow] at found)
  | succ fuel ih =>
    cases pending with
    | nil => exact .inl (by rwa [follow_nil] at found)
    | cons place pending =>
      rw [follow_cons] at found
      split at found
      · obtain kept | ⟨source, member, leads⟩ := ih found
        · exact .inl kept
        · exact .inr ⟨source, List.mem_cons_of_mem _ member, leads⟩
      · obtain kept | ⟨source, member, leads⟩ := ih found
        · split at kept
          · obtain rfl | earlier := List.mem_cons.mp kept
            · exact .inr ⟨target, List.mem_cons_self, .refl⟩
            · exact .inl earlier
          · exact .inl kept
        · obtain next | later := List.mem_append.mp member
          · exact .inr ⟨place, List.mem_cons_self, .head next leads⟩
          · exact .inr ⟨source, List.mem_cons_of_mem _ later, leads⟩

/-- Visiting a place leaves one place fewer to visit. -/
theorem count_visit {visited : Array Bool} {place : Nat}
    (fresh : visited.getD place true = false) :
    (visited.setIfInBounds place true).count false + 1 = visited.count false := by
  rw [Array.getD_eq_getD_getElem?] at fresh
  have within : place < visited.size := by
    by_contra outside
    rw [Array.getElem?_eq_none (Nat.le_of_not_lt outside)] at fresh
    contradiction
  have unvisited : visited[place] = false := by
    rw [Array.getElem?_eq_getElem within] at fresh
    exact fresh
  have positive : 0 < visited.count false :=
    Array.count_pos_iff.mpr (unvisited ▸ Array.getElem_mem within)
  rw [Array.setIfInBounds_def, dif_pos within, Array.count_set, unvisited]
  simp only [beq_self_eq_true, if_true, Bool.true_beq, Bool.false_eq_true, if_false, Nat.add_zero]
  omega

/-- Visiting a place marks it and no other one. -/
theorem getD_visit (visited : Array Bool) (place other : Nat) :
    (visited.setIfInBounds place true).getD other true =
      (decide (place = other) || visited.getD other true) := by
  rw [Array.getD_eq_getD_getElem?, Array.getD_eq_getD_getElem?, Array.getElem?_setIfInBounds]
  by_cases same : place = other
  · subst same
    rw [if_pos rfl, decide_eq_true rfl, Bool.true_or]
    split <;> rfl
  · rw [if_neg same, decide_eq_false same, Bool.false_or]

/-- The places visited so far: those that wait are collected, and those that follow are visited or
pending. -/
def Settled (program : Program) (before after : Option Character) (pending : List Nat)
    (visited : Array Bool) (places : List Nat) : Prop :=
  ∀ place, visited.getD place true = true →
    (program.waits place = true → place ∈ places) ∧
    ∀ next ∈ program.silent before after place, next ∈ pending ∨ visited.getD next true = true

/-- With enough fuel every waiting place is collected that a visited or a pending place leads to. -/
theorem mem_follow_of_leads {fuel : Nat} {pending : List Nat} {visited : Array Bool}
    {places : List Nat} (enough : pending.length + 2 * visited.count false < fuel)
    (settled : program.Settled before after pending visited places) {place target : Nat}
    (known : place ∈ pending ∨ visited.getD place true = true)
    (leads : program.Leads before after place target) (waiting : program.waits target = true) :
    target ∈ program.follow before after fuel pending visited places := by
  induction fuel generalizing pending visited places place with
  | zero => omega
  | succ fuel ih =>
    cases pending with
    | nil =>
      -- Nothing is pending, so the visited places are closed under silent steps.
      rw [follow_nil]
      have visit := known.resolve_left List.not_mem_nil
      have reached : visited.getD target true = true := by
        clear waiting ih
        induction leads with
        | refl => exact visit
        | tail _ step arrived =>
          exact ((settled _ arrived).2 _ step).resolve_left List.not_mem_nil
      exact (settled target reached).1 waiting
    | cons first pending =>
      rw [List.length_cons] at enough
      rw [follow_cons]
      by_cases seen : visited.getD first true = true
      · rw [if_pos seen]
        have forget {next : Nat}
            (listed : next ∈ first :: pending ∨ visited.getD next true = true) :
            next ∈ pending ∨ visited.getD next true = true := by
          obtain listed | marked := listed
          · obtain rfl | later := List.mem_cons.mp listed
            · exact .inr seen
            · exact .inl later
          · exact .inr marked
        refine ih (by omega) ?_ (forget known) leads
        intro other marked
        exact ⟨(settled other marked).1, fun next follows =>
          forget ((settled other marked).2 next follows)⟩
      · rw [if_neg seen]
        have fresh := Bool.eq_false_iff.mpr seen
        have counted := count_visit fresh
        have few := program.length_silent_le before after first
        have renew {next : Nat}
            (listed : next ∈ first :: pending ∨ visited.getD next true = true) :
            next ∈ program.silent before after first ++ pending ∨
              (visited.setIfInBounds first true).getD next true = true := by
          rw [getD_visit, Bool.or_eq_true, decide_eq_true_eq]
          obtain listed | marked := listed
          · obtain rfl | later := List.mem_cons.mp listed
            · exact .inr (.inl rfl)
            · exact .inl (List.mem_append_right _ later)
          · exact .inr (.inr marked)
        refine ih (by rw [List.length_append]; omega) ?_ (renew known) leads
        intro other marked
        rw [getD_visit, Bool.or_eq_true, decide_eq_true_eq] at marked
        obtain rfl | earlier := marked
        · refine ⟨fun waits => ?_, fun next follows => .inl (List.mem_append_left _ follows)⟩
          rw [if_pos waits]
          exact List.mem_cons_self
        · refine ⟨fun waits => ?_,
            fun next follows => renew ((settled other earlier).2 next follows)⟩
          have kept := (settled other earlier).1 waits
          split
          · exact List.mem_cons_of_mem _ kept
          · exact kept

/-- Of the places that wait, exactly those are reached that the given ones lead to. -/
theorem mem_reach_iff {places : List Nat} {target : Nat} (waiting : program.waits target = true) :
    target ∈ program.reach before after places ↔
      ∃ place ∈ places, program.Leads before after place target := by
  have outside (place : Nat) (marked : (Array.replicate program.code.size false).getD place true) :
      program.code[place]? = none := by
    rw [Array.getD_eq_getD_getElem?, Array.getElem?_replicate] at marked
    split at marked
    · contradiction
    · exact Array.getElem?_eq_none (by omega)
  rw [reach, List.mem_reverse]
  constructor
  · intro found
    obtain none | leads := leads_of_mem_follow found
    · contradiction
    · exact leads
  · rintro ⟨place, member, leads⟩
    refine mem_follow_of_leads ?_ ?_ (.inl member) leads waiting
    · rw [Array.count_replicate]
      simp only [beq_self_eq_true, if_true]
      omega
    · intro other marked
      have absent := outside other marked
      refine ⟨fun waits => ?_, fun next follows => ?_⟩
      · rw [Program.waits, absent] at waits
        contradiction
      · rw [silent, absent] at follows
        contradiction

/-! ## Matches -/

/-- A match from a place between the character before and the rest, in a number of steps. -/
inductive Accepts (program : Program) : (steps place : Nat) → (before : Option Character) →
    (taken rest : List Character) → Prop where
  | accept {place : Nat} {before : Option Character} {rest : List Character}
      (ends : program.isAccepting place = true) : Accepts program 0 place before [] rest
  | silent {steps place next : Nat} {before : Option Character} {taken rest : List Character}
      (follows : next ∈ program.silent before (taken ++ rest).head? place)
      (later : Accepts program steps next before taken rest) :
      Accepts program (steps + 1) place before taken rest
  | take {steps place next : Nat} {before : Option Character} {character : Character}
      {taken rest : List Character} (takes : program.take? character place = some next)
      (later : Accepts program steps next (some character) taken rest) :
      Accepts program (steps + 1) place before (character :: taken) rest

/-- A match from a place between the character before and the rest. -/
def Finds (program : Program) (place : Nat) (before : Option Character)
    (taken rest : List Character) : Prop :=
  ∃ steps, program.Accepts steps place before taken rest

/-- A place that ends a match waits. -/
theorem waits_of_isAccepting {place : Nat} (ends : program.isAccepting place = true) :
    program.waits place = true := by
  unfold isAccepting at ends
  unfold waits
  split at ends
  · rename_i accepts
    rw [accepts]
  · contradiction

/-- A place that takes a character waits. -/
theorem waits_of_take? {place next : Nat} {character : Character}
    (takes : program.take? character place = some next) : program.waits place = true := by
  unfold take? at takes
  unfold waits
  split at takes
  · rename_i consumes
    rw [consumes]
  · contradiction

/-- How a match goes on at a place that waits. -/
inductive Resumes (program : Program) (place : Nat) : (taken rest : List Character) → Prop where
  | accept {rest : List Character} (ends : program.isAccepting place = true) :
      Resumes program place [] rest
  | take {next : Nat} {character : Character} {taken rest : List Character}
      (takes : program.take? character place = some next)
      (later : program.Finds next (some character) taken rest) :
      Resumes program place (character :: taken) rest

/-- A match goes on at a place that waits. -/
theorem Resumes.waits {place : Nat} {taken rest : List Character}
    (resumes : program.Resumes place taken rest) : program.waits place = true := by
  cases resumes with
  | accept ends => exact waits_of_isAccepting ends
  | take takes _ => exact waits_of_take? takes

/-- A match consists of silent steps to a place that waits and of what it does there. -/
theorem finds_iff {place : Nat} {taken rest : List Character} :
    program.Finds place before taken rest ↔
      ∃ target, program.Leads before (taken ++ rest).head? place target ∧
        program.Resumes target taken rest := by
  constructor
  · rintro ⟨steps, accepts⟩
    induction accepts with
    | accept ends => exact ⟨_, .refl, .accept ends⟩
    | silent follows _ ih =>
      obtain ⟨target, leads, resumes⟩ := ih
      exact ⟨target, .head follows leads, resumes⟩
    | take takes later _ => exact ⟨_, .refl, .take takes ⟨_, later⟩⟩
  · rintro ⟨target, leads, resumes⟩
    induction leads using Relation.ReflTransGen.head_induction_on with
    | refl =>
      cases resumes with
      | accept ends => exact ⟨0, .accept ends⟩
      | take takes later =>
        obtain ⟨steps, accepts⟩ := later
        exact ⟨steps + 1, .take takes accepts⟩
    | head follows _ ih =>
      obtain ⟨steps, accepts⟩ := ih
      exact ⟨steps + 1, .silent follows accepts⟩

/-- Of the places given, some one finds a match exactly when a place reached goes on with it. -/
theorem exists_finds_iff {places : List Nat} {taken rest : List Character} :
    (∃ place ∈ places, program.Finds place before taken rest) ↔
      ∃ target ∈ program.reach before (taken ++ rest).head? places,
        program.Resumes target taken rest := by
  constructor
  · rintro ⟨place, member, finds⟩
    obtain ⟨target, leads, resumes⟩ := finds_iff.mp finds
    exact ⟨target, (mem_reach_iff resumes.waits).mpr ⟨place, member, leads⟩, resumes⟩
  · rintro ⟨target, reached, resumes⟩
    obtain ⟨place, member, leads⟩ := (mem_reach_iff resumes.waits).mp reached
    exact ⟨place, member, finds_iff.mpr ⟨target, leads, resumes⟩⟩

/-- Some one of the places given finds the empty match when a place reached ends one. -/
theorem exists_finds_nil {places : List Nat} {rest : List Character}
    (accepting : (program.reach before rest.head? places).any program.isAccepting = true) :
    ∃ place ∈ places, program.Finds place before [] rest := by
  obtain ⟨target, reached, ends⟩ := List.any_eq_true.mp accepting
  exact exists_finds_iff.mpr ⟨target, reached, .accept ends⟩

/-! ## Runs -/

/-- One character of a run: a match that ends before it is kept, and the places preferred to that
match move past it. -/
theorem run_cons (program : Program) (before : Option Character) (character : Character)
    (rest : List Character) (places : List Nat) (length : Nat) (best : Option Nat) :
    program.run before (character :: rest) places length best =
      let reached := program.reach before (some character) places
      let kept := if reached.any program.isAccepting then some length else best
      match (reached.takeWhile fun place => !program.isAccepting place).filterMap
          (program.take? character) with
      | [] => kept
      | next => program.run (some character) rest next (length + 1) kept := by
  have accepting (reached : List Nat) :
      (reached.takeWhile fun place => !program.isAccepting place).length < reached.length ↔
        reached.any program.isAccepting = true := by
    induction reached with
    | nil => simp
    | cons place others ih =>
      rw [List.takeWhile_cons, List.any_cons]
      cases program.isAccepting place with
      | true => simp
      | false => simpa using ih
  have unfolded := run.eq_def program before (character :: rest) places length best
  simp only [accepting] at unfolded
  exact unfolded

/-- A run that has found a match keeps one. -/
theorem run_ne_none (program : Program) (characters : List Character) (before : Option Character)
    (places : List Nat) (length found : Nat) :
    program.run before characters places length (some found) ≠ none := by
  induction characters generalizing before places length found with
  | nil =>
    rw [run]
    split <;> exact Option.some_ne_none _
  | cons character rest ih =>
    have kept : ∃ size, (if (program.reach before (some character) places).any program.isAccepting
        then some length else some found) = some size := by
      split <;> exact ⟨_, rfl⟩
    obtain ⟨size, kept⟩ := kept
    rw [run_cons]
    simp only [kept]
    split
    · exact Option.some_ne_none _
    · exact ih _ _ _ _

/-- A run that finds nothing has places that can find nothing. -/
theorem not_finds_of_run_eq_none {characters : List Character} {places : List Nat} {length : Nat}
    (failed : program.run before characters places length none = none) {place : Nat}
    (member : place ∈ places) {taken rest : List Character} (whole : characters = taken ++ rest) :
    ¬program.Finds place before taken rest := by
  intro finds
  obtain ⟨target, reached, resumes⟩ := exists_finds_iff.mp ⟨place, member, finds⟩
  rw [← whole] at reached
  induction characters generalizing before places length place taken target with
  | nil =>
    obtain ⟨rfl, rfl⟩ := List.append_eq_nil_iff.mp whole.symm
    cases resumes with
    | accept ends =>
      have accepting : (program.reach before none places).any program.isAccepting = true :=
        List.any_eq_true.mpr ⟨target, reached, ends⟩
      rw [run, if_pos accepting] at failed
      contradiction
  | cons character others ih =>
    rw [run_cons] at failed
    by_cases accepting : (program.reach before (some character) places).any program.isAccepting
    · -- A match that ends here would have been kept.
      simp only [accepting, if_true] at failed
      split at failed
      · contradiction
      · exact run_ne_none _ _ _ _ _ _ failed
    have quiet : ∀ arrived ∈ program.reach before (some character) places,
        (!program.isAccepting arrived) = true := by simpa using accepting
    cases resumes with
    | accept ends =>
      have silent := quiet target reached
      rw [ends] at silent
      contradiction
    | @take next _ later _ takes finds =>
      rw [List.cons_append] at whole
      obtain ⟨rfl, remaining⟩ := List.cons.inj whole
      have moved : next ∈ (program.reach before (some character) places).filterMap
          (program.take? character) := List.mem_filterMap.mpr ⟨target, reached, takes⟩
      simp only [accepting, Bool.false_eq_true, if_false,
        List.takeWhile_eq_self_iff.mpr quiet] at failed
      split at failed
      · rename_i stuck
        rw [stuck] at moved
        contradiction
      · obtain ⟨last, arrived, resumes⟩ := exists_finds_iff.mp ⟨next, moved, finds⟩
        rw [← remaining] at arrived
        exact ih failed moved remaining finds last arrived resumes

/-- What a run finds was found before or is a match from one of its places. -/
theorem finds_of_run_eq_some {characters : List Character} {places : List Nat}
    {length found : Nat} {best : Option Nat}
    (result : program.run before characters places length best = some found) :
    best = some found ∨ ∃ place ∈ places, ∃ size, found = length + size ∧
      program.Finds place before (characters.take size) (characters.drop size) := by
  induction characters generalizing before places length best with
  | nil =>
    rw [run] at result
    split at result
    · rename_i accepting
      obtain ⟨place, member, finds⟩ := @exists_finds_nil _ _ _ [] accepting
      exact .inr ⟨place, member, 0, (Option.some.inj result).symm, finds⟩
    · exact .inl result
  | cons character others ih =>
    have settle (kept : (if (program.reach before (some character) places).any program.isAccepting
        then some length else best) = some found) :
        best = some found ∨ ∃ place ∈ places, ∃ size, found = length + size ∧
          program.Finds place before ((character :: others).take size)
            ((character :: others).drop size) := by
      split at kept
      · rename_i accepting
        obtain ⟨place, member, finds⟩ := @exists_finds_nil _ _ _ (character :: others) accepting
        exact .inr ⟨place, member, 0, (Option.some.inj kept).symm, finds⟩
      · exact .inl kept
    rw [run_cons] at result
    dsimp only at result
    split at result
    · exact settle result
    · obtain kept | ⟨next, member, size, total, finds⟩ := ih result
      · exact settle kept
      · obtain ⟨target, listed, takes⟩ := List.mem_filterMap.mp member
        have reached : target ∈ program.reach before
            ((character :: others.take size) ++ others.drop size).head? places :=
          List.takeWhile_subset _ listed
        obtain ⟨place, given, whole⟩ := exists_finds_iff.mpr ⟨target, reached, .take takes finds⟩
        exact .inr ⟨place, given, size + 1, by omega, whole⟩

/-- A program that matches nothing can match nothing. -/
theorem not_finds_of_match?_eq_none {characters : List Character}
    (none : program.match? characters = none) {taken rest : List Character}
    (whole : characters = taken ++ rest) : ¬program.Finds program.entry .none taken rest :=
  not_finds_of_run_eq_none none (List.mem_singleton_self _) whole

/-- The match that a program gives is one that it can find. -/
theorem finds_of_match?_eq_some {characters : List Character} {length : Nat}
    (result : program.match? characters = some length) :
    program.Finds program.entry none (characters.take length) (characters.drop length) := by
  obtain none | ⟨place, member, size, total, finds⟩ := finds_of_run_eq_some result
  · contradiction
  · obtain rfl := List.mem_singleton.mp member
    rw [total, Nat.zero_add]
    exact finds

end Aml.Program
