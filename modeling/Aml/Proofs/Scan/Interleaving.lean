import Mathlib
import Aml.Proofs.Rule.Acceptance
import Aml.Proofs.Scan.Language

/-!
# Streams that share a scanner

A client may hold any number of streams on one scanner, each under a name, and use them in any
order. A `Pool` keeps them and answers the steps of the client one after the other. A step on one
name leaves the other streams alone (`Pool.streams_step`), so after any run the stream of a name is
the one that asking alone leaves, as often as its client has asked since it was last opened
(`Pool.streams_after_asksSince`). What a stream answers to each call is then what a scan of its
source says (`Scanner.next_ask_stream`), and its line counter only ever grows, up to the call that
ends it (`Stream.counter_monotone`).

The last answer of a stream is that of the whole scan, with one exception: an error that stands for
the end of the input is taken for it by the scan (`Scanner.interleaving_exact`), and nothing keeps
the converter of an accepted rule from giving one (`Scanner.interleaving_cut_short`).
-/
namespace Aml

/-! ## One stream -/

/-- A skipped piece does not take the line counter back. -/
theorem Piece.le_of_read_skipped {piece : Piece} {table : KeywordTable} {line next : Int}
    (read : piece.read table line = .skipped next) : line ≤ next := by
  cases becomes_of_read read with
  | silent => exact Int.le_refl _
  | suppressed =>
    split
    · omega
    · exact Int.le_refl _

/-- A skipped match of the engine does not take the line counter back. -/
theorem Scanner.le_of_read_skipped {scanner : Scanner} {piece : Piece} {line next : Int}
    (read : scanner.read piece line = .skipped next) : line ≤ next := by
  unfold Scanner.read at read
  dsimp only at read
  split at read
  · contradiction
  · exact Piece.le_of_read_skipped read

namespace Stream

/-- Reading pieces up to a token, or to the end, does not take the line counter back. -/
theorem line_le_advance (scanner : Scanner) (source : Text) (ending : Ending) (line : Int)
    (pieces : List Piece) : line ≤ (advance scanner source ending line pieces).2.line := by
  induction pieces generalizing line with
  | nil => exact Int.le_refl _
  | cons piece rest ih =>
    rw [advance]
    cases read : scanner.read piece line with
    | skipped next =>
      have further : line ≤ next := Scanner.le_of_read_skipped read
      exact further.trans (ih next)
    | token token => exact Int.le_refl _
    | failed error => exact Int.le_refl _

/-- A call does not take the line counter back. -/
theorem line_le_next (stream : Stream) : stream.line ≤ stream.next.2.line := by
  unfold next
  split
  · exact line_le_advance ..
  · exact Int.le_refl _

/-- The last of several calls asks the stream that the calls before it leave. -/
theorem ask_succ (calls : Nat) (stream : Stream) :
    ask (calls + 1) stream =
      ((ask calls stream).1 ++ [(ask calls stream).2.next.1], (ask calls stream).2.next.2) := by
  induction calls generalizing stream with
  | zero => rfl
  | succ calls ih =>
    rw [ask, ih]
    rfl

/-- The line counter after a number of calls. -/
def counter (stream : Stream) (calls : Nat) : Int :=
  (ask calls stream).2.line

/-- The line counter never decreases. -/
theorem counter_monotone (stream : Stream) : Monotone stream.counter := by
  apply monotone_nat_of_le_succ
  intro calls
  have grows := line_le_next (ask calls stream).2
  rw [counter, counter, ask_succ]
  exact grows

end Stream

namespace Scanner

/-- The line counter of a stream stays where it is once the stream has ended. -/
theorem counter_stream (scanner : Scanner) (source : Text) {calls : Nat}
    (past : (scanner.scanUntilFailure source).1.length < calls) :
    (scanner.stream source).counter calls = scanner.finalLine source :=
  (scanner.ask_stream source calls).2 past

/-- A stream that has been asked a number of times answers with the next token of the scan, or as
it ends. -/
theorem next_ask_stream (scanner : Scanner) (source : Text) (calls : Nat) :
    (Stream.ask calls (scanner.stream source)).2.next.1 =
      match (scanner.scanUntilFailure source).1[calls]? with
      | some token => .token token
      | none => Answer.last (scanner.lastError? source) := by
  have answers := (scanner.ask_stream source (calls + 1)).1
  rw [Stream.ask_succ] at answers
  have final := congrArg List.getLast? answers
  rw [List.getLast?_concat] at final
  generalize (scanner.scanUntilFailure source).1 = tokens at final ⊢
  by_cases within : calls < tokens.length
  · have surplus : calls + 1 - tokens.length = 0 := by omega
    rw [surplus, List.replicate_zero, List.append_nil, List.take_add_one, List.map_append,
      List.getElem?_eq_getElem within, Option.toList_some, List.map_singleton,
      List.getLast?_concat] at final
    rw [List.getElem?_eq_getElem within]
    exact Option.some.inj final
  · have surplus : calls + 1 - tokens.length = (calls - tokens.length) + 1 := by omega
    rw [surplus, List.replicate_succ', ← List.append_assoc, List.getLast?_concat] at final
    rw [List.getElem?_eq_none (by omega)]
    exact Option.some.inj final

/-- A stream answers with an error only after all of its tokens, and with the one in which it
ends. -/
theorem failed_mem_ask_stream {scanner : Scanner} {source : Text} {calls : Nat} {error : ScanError}
    (answered : .failed error ∈ (Stream.ask calls (scanner.stream source)).1) :
    (scanner.scanUntilFailure source).1.length < calls ∧
      scanner.lastError? source = some error := by
  rw [(scanner.ask_stream source calls).1, List.mem_append] at answered
  obtain made | ended := answered
  · obtain ⟨_, _, same⟩ := List.mem_map.mp made
    contradiction
  · obtain ⟨several, same⟩ := List.mem_replicate.mp ended
    refine ⟨by omega, ?_⟩
    cases met : scanner.lastError? source with
    | none =>
      rw [met] at same
      contradiction
    | some fault =>
      rw [met] at same
      rw [Answer.failed.inj same]

end Scanner

/-! ## Many streams -/

/-- Streams of one scanner, each under a name. -/
structure Pool (Name : Type) where
  scanner : Scanner
  streams : Name → Option Stream

namespace Pool

/-- What a client does with a name. -/
inductive Action where
  /-- Starts a scan of a source, in place of any stream before it. -/
  | opened (source : Text)
  /-- Asks the stream for a token. -/
  | next
  /-- Looks at the line counter of the stream. -/
  | line
  deriving DecidableEq

/-- What a client is told about a stream. -/
structure Response where
  /-- The answer of the stream, if it was asked for a token. -/
  answer : Option Answer
  /-- The line counter after the step. -/
  line : Int

/-- What a step makes of the stream of its name, if there is one. -/
def Action.effect (scanner : Scanner) : Action → Option Stream → Option Stream
  | .opened source, _ => some (scanner.stream source)
  | .next, stream => stream.map fun stream => stream.next.2
  | .line, stream => stream

/-- What the client of a name is told about its stream; there is nothing to tell about a name that
was never opened. -/
def Action.response (scanner : Scanner) : Action → Option Stream → Option Response
  | .opened source, _ => some ⟨none, (scanner.stream source).line⟩
  | .next, stream => stream.map fun stream => ⟨some stream.next.1, stream.next.2.line⟩
  | .line, stream => stream.map fun stream => ⟨none, stream.line⟩

variable {Name : Type} [DecidableEq Name]

/-- The pool of a scanner before any name is opened. -/
def ofScanner (scanner : Scanner) : Pool Name where
  scanner := scanner
  streams := fun _ => none

/-- The pool after a step on a name. -/
def step (pool : Pool Name) (name : Name) (action : Action) : Pool Name where
  scanner := pool.scanner
  streams := Function.update pool.streams name (action.effect pool.scanner (pool.streams name))

/-- The pool after steps. -/
def after (pool : Pool Name) : List (Name × Action) → Pool Name
  | [] => pool
  | (name, action) :: rest => (pool.step name action).after rest

/-- The responses to steps, in order. -/
def responses (pool : Pool Name) : List (Name × Action) → List (Option Response)
  | [] => []
  | (name, action) :: rest =>
    action.response pool.scanner (pool.streams name) :: (pool.step name action).responses rest

/-- A step changes the stream of its own name alone. -/
theorem streams_step (pool : Pool Name) (name other : Name) (action : Action) :
    (pool.step name action).streams other =
      if other = name then action.effect pool.scanner (pool.streams name)
      else pool.streams other :=
  Function.update_apply ..

/-- A run does not change the scanner. -/
theorem scanner_after (pool : Pool Name) (steps : List (Name × Action)) :
    (pool.after steps).scanner = pool.scanner := by
  induction steps generalizing pool with
  | nil => rfl
  | cons first rest ih => exact ih _

/-- A run goes on from the pool that its first part leaves. -/
theorem after_append (pool : Pool Name) (first second : List (Name × Action)) :
    pool.after (first ++ second) = (pool.after first).after second := by
  induction first generalizing pool with
  | nil => rfl
  | cons step rest ih => exact ih _

/-- Every step has a response. -/
theorem length_responses (pool : Pool Name) (steps : List (Name × Action)) :
    (pool.responses steps).length = steps.length := by
  induction steps generalizing pool with
  | nil => rfl
  | cons step rest ih => exact congrArg Nat.succ (ih _)

/-- The responses to a run are those to its parts. -/
theorem responses_append (pool : Pool Name) (first second : List (Name × Action)) :
    pool.responses (first ++ second) =
      pool.responses first ++ (pool.after first).responses second := by
  induction first generalizing pool with
  | nil => rfl
  | cons step rest ih => exact congrArg _ (ih _)

/-- The response to a step of a run is the one that the steps before it lead to. -/
theorem getElem?_responses (pool : Pool Name) (front rest : List (Name × Action)) (name : Name)
    (action : Action) :
    (pool.responses (front ++ (name, action) :: rest))[front.length]? =
      some (action.response pool.scanner ((pool.after front).streams name)) := by
  have sized := length_responses pool front
  rw [← pool.scanner_after front, responses_append, List.getElem?_append_right sized.le, sized,
    Nat.sub_self]
  rfl

variable {name : Name} {steps : List (Name × Action)}

/-- Steps that do not open a name ask its stream as often as they say, and do nothing else to
it. -/
theorem streams_after_of_unopened {pool : Pool Name} {stream : Stream} {calls : Nat}
    (unopened : ∀ source, (name, .opened source) ∉ steps)
    (held : pool.streams name = some (Stream.ask calls stream).2) :
    (pool.after steps).streams name =
      some (Stream.ask (calls + steps.count (name, .next)) stream).2 := by
  induction steps generalizing pool calls with
  | nil => exact held
  | cons first rest ih =>
    obtain ⟨other, action⟩ := first
    have later : ∀ source, (name, .opened source) ∉ rest :=
      fun source member => unopened source (List.mem_cons_of_mem _ member)
    have changed := streams_step pool other name action
    rw [after]
    by_cases same : name = other
    · subst same
      rw [if_pos rfl, held] at changed
      cases action with
      | opened source => exact absurd List.mem_cons_self (unopened source)
      | next =>
        have asked : (pool.step name .next).streams name =
            some (Stream.ask (calls + 1) stream).2 := by
          rw [changed, Stream.ask_succ]
          rfl
        have total : calls + List.count (name, .next) ((name, .next) :: rest) =
            calls + 1 + List.count (name, .next) rest := by
          rw [List.count_cons_self]
          omega
        rw [ih later asked, total]
      | line =>
        have apart : ((name, .line) : Name × Action) ≠ (name, .next) := by simp
        rw [ih later changed, List.count_cons_of_ne apart]
    · have apart : ((other, action) : Name × Action) ≠ (name, .next) := by
        intro equal
        exact same (congrArg Prod.fst equal).symm
      rw [if_neg same, held] at changed
      rw [ih later changed, List.count_cons_of_ne apart]

/-- Steps that open a name for the last time with a source and ask its stream a number of times
after that, whatever else they do. -/
def AsksSince (name : Name) (source : Text) (calls : Nat) (steps : List (Name × Action)) : Prop :=
  ∃ before later, steps = before ++ (name, .opened source) :: later ∧
    (∀ fresh, (name, .opened fresh) ∉ later) ∧ later.count (name, .next) = calls

/-- After any run the stream of a name is the one that is left by asking a stream of its own, as
often as the name was asked since it was last opened. -/
theorem streams_after_asksSince (scanner : Scanner) {source : Text} {calls : Nat}
    (asked : AsksSince name source calls steps) :
    ((ofScanner scanner).after steps).streams name =
      some (Stream.ask calls (scanner.stream source)).2 := by
  obtain ⟨before, later, rfl, unopened, rfl⟩ := asked
  have start : (((ofScanner scanner).after before).step name (.opened source)).streams name =
      some (Stream.ask 0 (scanner.stream source)).2 := by
    rw [streams_step, if_pos rfl, scanner_after]
    rfl
  rw [after_append, after, streams_after_of_unopened unopened start, Nat.zero_add]

end Pool

/-- What a call past the tokens of a source answers agrees with the whole scan: the end if the scan
gives these tokens, and its error if it fails. -/
def Answer.Agrees (answer : Answer) (tokens : List Token) :
    (scanned : Except ScanError (List Token)) → Prop
  | .ok all => all = tokens ∧ answer = .finished
  | .error error => answer = .failed error

namespace Scanner

/-- Where a stream ends with an error that stands for the end of the input, the whole scan takes it
for the end. -/
theorem scan_eq_ok_of_endsInput {scanner : Scanner} {source : Text} {error : ScanError}
    (failed : scanner.lastError? source = some error) (ends : error.endsInput = true) :
    scanner.scan source = .ok (scanner.scanUntilFailure source).1 := by
  have unseen : (scanner.scanUntilFailure source).2 = none := by
    rw [scanUntilFailure_snd, failed]
    simp [Option.filter, ends]
  exact scan_eq_ok_iff.mpr (Prod.ext rfl unseen)

/-- The answer with which a stream ends agrees with the whole scan exactly when it is no error that
stands for the end of the input. -/
theorem last_agrees_iff (scanner : Scanner) (source : Text) :
    (Answer.last (scanner.lastError? source)).Agrees (scanner.scanUntilFailure source).1
        (scanner.scan source) ↔
      ∀ error ∈ scanner.lastError? source, error.endsInput = false := by
  have seen := scanner.scanUntilFailure_snd source
  cases failed : scanner.lastError? source with
  | none =>
    rw [failed] at seen
    rw [scan_eq_ok_iff.mpr (Prod.ext rfl seen)]
    simp [Answer.Agrees, Answer.last]
  | some error =>
    cases stands : error.endsInput with
    | true =>
      rw [scan_eq_ok_of_endsInput failed stands]
      simp [Answer.Agrees, Answer.last, stands]
    | false =>
      rw [failed, Option.filter_some, if_pos (by simp [stands])] at seen
      rw [scan_eq_error_iff.mpr seen]
      simp [Answer.Agrees, Answer.last, stands]

/-- How pull, push and prefix scanning agree, however streams are interleaved. A source has one
answer to each call and one line counter after each number of calls, and in every run over any names
these are what the client of a name is told, by the number of calls since the name was last opened.
The answers are the tokens before the end of the scan, in order, and after them always the same last
one, the end or an error. The last answer agrees with the whole scan, unless it is an error that
stands for the end of the input: then the whole scan succeeds with the tokens so far. No such error
comes up where no converter refuses a lexeme for the end of the input. The line counter starts at 1,
never decreases, and stays where it is once the stream has ended. -/
theorem interleaving_exact (scanner : Scanner) (source : Text) :
    ∃ (answer : Nat → Answer) (last : Answer) (counter : Nat → Int),
      (∀ {Name : Type} [DecidableEq Name] (name : Name) (steps later : List (Name × Pool.Action)),
        let told (action : Pool.Action) : Option (Option Pool.Response) :=
          ((Pool.ofScanner scanner).responses (steps ++ (name, action) :: later))[steps.length]?
        told (.opened source) = some (some ⟨none, counter 0⟩) ∧
        ∀ calls, Pool.AsksSince name source calls steps →
          told .next = some (some ⟨some (answer calls), counter (calls + 1)⟩) ∧
          told .line = some (some ⟨none, counter calls⟩)) ∧
      (∀ calls token, (scanner.scanUntilFailure source).1[calls]? = some token →
        answer calls = .token token) ∧
      (∀ calls, (scanner.scanUntilFailure source).1.length ≤ calls → answer calls = last) ∧
      (last.Agrees (scanner.scanUntilFailure source).1 (scanner.scan source) ↔
        ∀ error, last = .failed error → error.endsInput = false) ∧
      (∀ error, last = .failed error → error.endsInput = true →
        scanner.scan source = .ok (scanner.scanUntilFailure source).1) ∧
      (scanner.Continues →
        last.Agrees (scanner.scanUntilFailure source).1 (scanner.scan source)) ∧
      counter 0 = 1 ∧ Monotone counter ∧
      ∀ calls, (scanner.scanUntilFailure source).1.length < calls →
        counter calls = counter ((scanner.scanUntilFailure source).1.length + 1) := by
  have agrees := scanner.last_agrees_iff source
  have met {error : ScanError} :
      Answer.last (scanner.lastError? source) = .failed error ↔
        scanner.lastError? source = some error := by
    cases scanner.lastError? source <;> simp [Answer.last]
  refine ⟨fun calls => (Stream.ask calls (scanner.stream source)).2.next.1,
    Answer.last (scanner.lastError? source), (scanner.stream source).counter,
    ?_, ?_, ?_, ?_, ?_, ?_, rfl, Stream.counter_monotone _, ?_⟩
  · intro Name _ name steps later
    simp only [Pool.getElem?_responses]
    refine ⟨rfl, fun calls asked => ?_⟩
    have held := Pool.streams_after_asksSince scanner asked
    rw [held, Stream.counter, Stream.counter, Stream.ask_succ]
    exact ⟨rfl, rfl⟩
  · intro calls token found
    dsimp only
    rw [next_ask_stream, found]
  · intro calls past
    have final := scanner.next_ask_stream source calls
    rw [List.getElem?_eq_none past] at final
    exact final
  · rw [agrees]
    exact forall_congr' fun error => imp_congr_left met.symm
  · intro error failed ends
    exact scan_eq_ok_of_endsInput (met.mp failed) ends
  · intro continues
    refine agrees.mpr fun error failed => ?_
    rw [continues.lastError?_eq, scanUntilFailure_snd, Option.mem_def,
      Option.filter_eq_some_iff] at failed
    simpa using failed.2
  · intro calls past
    rw [counter_stream scanner source past, counter_stream scanner source (Nat.lt_succ_self _)]

/-- A stream meets its illegal character after another stream has been opened and asked, and agrees
with the scan of its source. -/
theorem interleaving_exact_illegal :
    Pool.AsksSince 0 (Text.ofString "a\n$") 1
        [(0, .opened ("a\n$" : String)), (0, .next), (1, .opened ("b" : String)), (1, .next)] ∧
      (language .empty).Continues ∧
      ∃ line, ((Pool.ofScanner (language .empty)).responses
        ([(0, .opened ("a\n$" : String)), (0, .next), (1, .opened ("b" : String)), (1, .next)] ++
          [(0, .next)]))[4]? =
        some (some ⟨some (.failed (.illegalCharacter '$' 2 ⟨2, 1, 2⟩)), line⟩) := by
  have asked : Pool.AsksSince 0 (Text.ofString "a\n$") 1
      [(0, .opened ("a\n$" : String)), (0, .next), (1, .opened ("b" : String)), (1, .next)] :=
    ⟨[], [(0, .next), (1, .opened ("b" : String)), (1, .next)], rfl, by simp, by decide⟩
  have failed : (language .empty).scan ("a\n$" : String) =
      .error (.illegalCharacter '$' 2 ⟨2, 1, 2⟩) := by rfl
  have single : ((language .empty).scanUntilFailure ("a\n$" : String)).1.length ≤ 1 := by decide
  obtain ⟨answer, last, counter, told, _, ended, _, _, agrees, _⟩ :=
    interleaving_exact (language .empty) ("a\n$" : String)
  have met : last = .failed (.illegalCharacter '$' 2 ⟨2, 1, 2⟩) := by
    have agreed := agrees (language_continues .empty)
    rwa [failed] at agreed
  refine ⟨asked, language_continues .empty, counter 2, ?_⟩
  rw [← met, ← ended 1 single]
  exact ((told 0 _ []).2 1 asked).1

end Scanner

/-- A converter that takes the name of the last entry for the end of the input and gives no other
lexeme a value. -/
def Converter.lastEntry : Converter where
  convert lexeme :=
    if lexeme = ("end" : String) then .error (.other "EOF" true) else .ok none

/-- Rules for entries and the blanks between them. -/
def Rule.entries : List Rule :=
  [{ name := "ENTRY", kind := .operand .identifier, pattern := "[a-z]+",
     converter := some .lastEntry },
   { name := "BLANK", pattern := " +", suppress := true, order := 1 }]

/-- An accepted rule may refuse a lexeme for the end of the input. The scan of the whole source then
succeeds with the tokens before it, while the stream answers every later call with an error. -/
theorem Scanner.interleaving_cut_short :
    ∃ scanner error, Scanner.build (some .empty) Rule.entries = .ok scanner ∧
      scanner.scan ("a end b" : String) =
        .ok [⟨.operand .identifier, "a", none, 1, ⟨1, 1, 0⟩⟩] ∧
      ∀ calls, (Stream.ask (calls + 1) (scanner.stream ("a end b" : String))).1 =
        .token ⟨.operand .identifier, "a", none, 1, ⟨1, 1, 0⟩⟩ ::
          List.replicate calls (.failed error) := by
  let refusal : ScanError := .conversion 1 "ENTRY" "end" (.other "EOF" true)
  have observed : (Scanner.build (some .empty) Rule.entries).map (fun scanner =>
      (scanner.scan ("a end b" : String), (scanner.scanUntilFailure ("a end b" : String)).1,
        scanner.lastError? ("a end b" : String))) =
      .ok (.ok [⟨.operand .identifier, "a", none, 1, ⟨1, 1, 0⟩⟩],
        [⟨.operand .identifier, "a", none, 1, ⟨1, 1, 0⟩⟩], some refusal) := by rfl
  obtain ⟨scanner, built, outcome⟩ := exists_built_of_map observed
  simp only [Prod.mk.injEq] at outcome
  obtain ⟨scanned, tokens, failed⟩ := outcome
  refine ⟨scanner, refusal, built, scanned, fun calls => ?_⟩
  rw [(scanner.ask_stream _ _).1, tokens, failed]
  simp [Answer.last]

end Aml
