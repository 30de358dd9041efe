import GlyphStack.Proofs.Steps

/-!
# Runs as sequences of steps

States are reached by steps.  A failure ends a run, so a state that a failing
step leaves behind is reached, but no step leads on from it.

A run with a limit is tied to its steps: it comes to an end within some limit
exactly if its steps lead there.  The limit decides nothing else.
-/

namespace GlyphStack
namespace Engine

/-- Reached from a state by steps, of which only the last may have failed. -/
inductive Reaches
    (sink : Sink)
    (program : Program)
    (start : State) : State -> Option Failure -> Prop
  | refl : Reaches sink program start start none
  | step {state after : State} {failure : Option Failure}
      (reached : Reaches sink program start state none)
      (stepped : state.step? sink program = some (after, failure)) :
      Reaches sink program start after failure

/-- Come to an end from a state: past the last instruction, or by a failure. -/
inductive Ends
    (sink : Sink)
    (program : Program) : State -> State -> Option Failure -> Prop
  | finished {state : State}
      (past : program[state.index]? = none) :
      Ends sink program state state none
  | failed {state after : State} {failure : Failure}
      (stepped : state.step? sink program = some (after, some failure)) :
      Ends sink program state after (some failure)
  | step {state next final : State} {failure : Option Failure}
      (stepped : state.step? sink program = some (next, none))
      (ends : Ends sink program next final failure) :
      Ends sink program state final failure

section Runs

variable {sink : Sink} {program : Program}

/-- Only past the last instruction there is no step. -/
theorem State.step?_eq_none_iff
    {state : State} :
    state.step? sink program = none ↔ program[state.index]? = none := by
  unfold step?
  cases program[state.index]? with
  | none => simp
  | some instruction => cases gate : state.gate <;> simp

/-- What holds at the start and is kept by every step holds wherever a run
comes. -/
theorem Reaches.invariant
    {Holds : State -> Prop}
    {start state : State}
    {failure : Option Failure}
    (reached : Reaches sink program start state failure)
    (initially : Holds start)
    (kept : ∀ before after failure, Holds before ->
      Transition sink program before after failure -> Holds after) :
    Holds state := by
  induction reached with
  | refl => exact initially
  | step reached stepped inductionHypothesis =>
    exact kept _ _ _ inductionHypothesis (step?_eq_some_iff.mp stepped)

theorem Reaches.single
    {state after : State}
    {failure : Option Failure}
    (transition : Transition sink program state after failure) :
    Reaches sink program state after failure :=
  .step .refl (step?_eq_some_iff.mpr transition)

theorem Reaches.trans
    {start middle state : State}
    {failure : Option Failure}
    (first : Reaches sink program start middle none)
    (second : Reaches sink program middle state failure) :
    Reaches sink program start state failure := by
  induction second with
  | refl => exact first
  | step reached stepped inductionHypothesis => exact .step inductionHypothesis stepped

/-- A run counts its steps. -/
theorem Transition.steps_eq
    {state after : State}
    {failure : Option Failure}
    (transition : Transition sink program state after failure) :
    after.steps = state.steps + 1 := by
  cases transition with
  | skip found closed => simp
  | perform found opened performs => cases performs <;> simp

theorem Reaches.steps_le
    {start state : State}
    {failure : Option Failure}
    (reached : Reaches sink program start state failure) :
    start.steps ≤ state.steps := by
  induction reached with
  | refl => exact Nat.le_refl _
  | step reached stepped inductionHypothesis =>
    rw [(step?_eq_some_iff.mp stepped).steps_eq]
    omega

theorem Ends.reaches
    {state final : State}
    {failure : Option Failure}
    (ends : Ends sink program state final failure) :
    Reaches sink program state final failure := by
  induction ends with
  | finished past => exact .refl
  | failed stepped => exact .step .refl stepped
  | step stepped ends inductionHypothesis =>
    exact .trans (.step .refl stepped) inductionHypothesis

theorem Ends.past
    {state final : State}
    (ends : Ends sink program state final none) :
    program[final.index]? = none := by
  generalize unfailed : (none : Option Failure) = failure at ends
  induction ends with
  | finished past => exact past
  | failed stepped => cases unfailed
  | step stepped ends inductionHypothesis => exact inductionHypothesis unfailed

theorem Ends.steps_le
    {state final : State}
    {failure : Option Failure}
    (ends : Ends sink program state final failure) :
    state.steps ≤ final.steps :=
  ends.reaches.steps_le

/-- A run that has made a step comes to the same end. -/
theorem Ends.of_step
    {state next final : State}
    {failure : Option Failure}
    (ends : Ends sink program state final failure)
    (stepped : state.step? sink program = some (next, none)) :
    Ends sink program next final failure := by
  cases ends with
  | finished past => simp [State.step?, past] at stepped
  | failed other => simp [stepped] at other
  | step other ends =>
    rw [stepped] at other
    cases other
    exact ends

/-- A run comes to the same end from every state on its way. -/
theorem Ends.of_reaches
    {start state final : State}
    {failure : Option Failure}
    (ends : Ends sink program start final failure)
    (reached : Reaches sink program start state none) :
    Ends sink program state final failure := by
  generalize unfailed : (none : Option Failure) = none' at reached
  induction reached with
  | refl => exact ends
  | step reached stepped inductionHypothesis =>
    subst unfailed
    exact (inductionHypothesis rfl).of_step stepped

/-- An end that is reached from a state on the way is reached from the start. -/
theorem Ends.of_reached
    {start state final : State}
    {failure : Option Failure}
    (ends : Ends sink program state final failure)
    (reached : Reaches sink program start state none) :
    Ends sink program start final failure := by
  generalize unfailed : (none : Option Failure) = none' at reached
  induction reached with
  | refl => exact ends
  | step reached stepped inductionHypothesis =>
    subst unfailed
    exact inductionHypothesis (.step stepped ends) rfl

/-- A run ends with a failure or past the last instruction. -/
theorem Reaches.ends
    {start state : State}
    {failure : Option Failure}
    (reached : Reaches sink program start state failure)
    (past : failure = none -> program[state.index]? = none) :
    Ends sink program start state failure := by
  cases failure with
  | none => exact .of_reached (.finished (past rfl)) reached
  | some failure =>
    cases reached with
    | step reached stepped => exact .of_reached (.failed stepped) reached

/-- A run has one end. -/
theorem Ends.unique
    {state final final' : State}
    {failure failure' : Option Failure}
    (first : Ends sink program state final failure)
    (second : Ends sink program state final' failure') :
    final = final' ∧ failure = failure' := by
  induction first with
  | finished past =>
    cases second with
    | finished past' => exact ⟨rfl, rfl⟩
    | failed stepped => simp [State.step?, past] at stepped
    | step stepped ends => simp [State.step?, past] at stepped
  | failed stepped =>
    cases second with
    | finished past => simp [State.step?, past] at stepped
    | failed stepped' => simp_all
    | step stepped' ends => simp [stepped] at stepped'
  | step stepped ends inductionHypothesis => exact inductionHypothesis (second.of_step stepped)

/-- How a run ends that is not stopped. -/
def Ending.ofFailure : Option Failure -> Ending
  | none => .finished
  | some failure => .failed failure

theorem run_past
    {state : State}
    (past : program[state.index]? = none)
    (limit : Nat) :
    state.run sink program limit = (state, .finished) := by
  rw [State.run, State.runTo]
  split
  · rfl
  · simp_all

theorem run_skip
    {state : State}
    {instruction : Instruction}
    (found : program[state.index]? = some instruction)
    (closed : state.gate = false)
    (limit : Nat) :
    state.run sink program limit = (state.skip instruction).run sink program limit := by
  rw [State.run, State.runTo]
  split
  · simp_all
  · next other other_found =>
    obtain rfl : instruction = other := by simpa [found] using other_found
    simp [closed, State.run]

theorem run_perform
    {state : State}
    {instruction : Instruction}
    (found : program[state.index]? = some instruction)
    (opened : state.gate = true)
    (limit : Nat) :
    state.run sink program (limit + 1) =
      match state.perform sink program instruction with
      | (after, none) => after.run sink program limit
      | (after, some failure) => (after, .failed failure) := by
  rw [State.run, State.runTo]
  split
  · simp_all
  · next other other_found =>
    obtain rfl : instruction = other := by simpa [found] using other_found
    exact if_pos opened

/-- A plain instruction that does not fail passes the run on with the memory that it
leaves. -/
theorem run_plain
    {state : State}
    {instruction : Instruction}
    {memory : Memory}
    (found : program[state.index]? = some instruction)
    (opened : state.gate = true)
    (isPlain : instruction.kind.isPlain)
    (performed : state.memory.perform sink instruction = (memory, none))
    (limit : Nat) :
    state.run sink program (limit + 1) =
      (state.advance.withMemory memory).run sink program limit := by
  rw [run_perform found opened, State.perform_plain sink program state isPlain, performed]
  rfl

theorem run_stopped
    {state : State}
    {instruction : Instruction}
    (found : program[state.index]? = some instruction)
    (opened : state.gate = true) :
    state.run sink program 0 = (state.advance, .stopped (state.moment instruction)) := by
  rw [State.run, State.runTo]
  split
  · simp_all
  · next other other_found =>
    obtain rfl : instruction = other := by simpa [found] using other_found
    exact if_pos opened

/-- Induction along a run, from its end back to the state that it starts from. -/
theorem run_induction
    (sink : Sink)
    (program : Program)
    {motive : Nat -> State -> Prop}
    (finished : ∀ limit state, program[state.index]? = none -> motive limit state)
    (stopped : ∀ state instruction, program[state.index]? = some instruction ->
      state.gate = true -> motive 0 state)
    (passed : ∀ limit state instruction after, program[state.index]? = some instruction ->
      state.gate = true -> state.perform sink program instruction = (after, none) ->
      motive limit after -> motive (limit + 1) state)
    (failed : ∀ limit state instruction after failure,
      program[state.index]? = some instruction -> state.gate = true ->
      state.perform sink program instruction = (after, some failure) ->
      motive (limit + 1) state)
    (skipped : ∀ limit state instruction, program[state.index]? = some instruction ->
      state.gate = false -> motive limit (state.skip instruction) -> motive limit state)
    (limit : Nat)
    (state : State) :
    motive limit state := by
  fun_induction State.runTo sink program.length program limit state with
  | case1 limit state past => exact finished limit state past
  | case2 state instruction found opened => exact stopped state instruction found opened
  | case3 state instruction found opened limit after performed inductionHypothesis =>
    exact passed limit state instruction after found opened performed inductionHypothesis
  | case4 state instruction found opened limit after failure performed =>
    exact failed limit state instruction after failure found opened performed
  | case5 limit state instruction found closed inductionHypothesis =>
    exact skipped limit state instruction found (by simpa using closed) inductionHypothesis

/-- A run that is given enough room comes to the end that its steps lead to. -/
theorem Ends.exists_run
    {state final : State}
    {failure : Option Failure}
    (ends : Ends sink program state final failure) :
    ∃ limit, state.run sink program limit = (final, .ofFailure failure) := by
  induction ends with
  | finished past => exact ⟨0, run_past past 0⟩
  | failed stepped =>
    cases step?_eq_some_iff.mp stepped with
    | perform found opened performs =>
      refine ⟨1, ?_⟩
      rw [run_perform found opened, performs.perform_eq]
      rfl
  | step stepped ends inductionHypothesis =>
    obtain ⟨limit, run⟩ := inductionHypothesis
    cases step?_eq_some_iff.mp stepped with
    | skip found closed => exact ⟨limit, by rw [run_skip found closed, run]⟩
    | perform found opened performs =>
      refine ⟨limit + 1, ?_⟩
      rw [run_perform found opened, performs.perform_eq]
      exact run

/-- A run that is not stopped follows its steps to their end. -/
theorem ends_of_run
    {state final : State}
    {failure : Option Failure}
    {limit : Nat}
    (run : state.run sink program limit = (final, .ofFailure failure)) :
    Ends sink program state final failure := by
  induction limit, state using run_induction sink program with
  | finished limit state past =>
    rw [run_past past] at run
    cases failure <;> cases run
    exact .finished past
  | stopped state instruction found opened =>
    rw [run_stopped found opened] at run
    cases failure <;> cases run
  | passed limit state instruction after found opened performed inductionHypothesis =>
    rw [run_perform found opened, performed] at run
    refine .step ?_ (inductionHypothesis run)
    simp [State.step?, found, opened, performed]
  | failed limit state instruction after fault found opened performed =>
    rw [run_perform found opened, performed] at run
    cases failure <;> cases run
    refine .failed ?_
    simp [State.step?, found, opened, performed]
  | skipped limit state instruction found closed inductionHypothesis =>
    rw [run_skip found closed] at run
    refine .step ?_ (inductionHypothesis run)
    simp [State.step?, found, closed]

end Runs

/-- What an engine keeps of a run, unless the run was stopped. -/
def ended? : Engine × Ending -> Option Latest
  | (_, .stopped _) => none
  | (engine, _) => engine.latest

/-- An engine after a run of a program with its output to a sink, given what there
is to keep of the run. -/
def afterRun
    (engine : Engine)
    (sink : Sink)
    (program : Program)
    (latest : Latest) : Engine :=
  ({ engine with out := sink }.reset latest.state.machine latest.id program).keep
    latest.state latest.failure

@[simp]
theorem latest_afterRun
    (engine : Engine)
    (sink : Sink)
    (program : Program)
    (latest : Latest) :
    (engine.afterRun sink program latest).latest = some latest := rfl

section Engines

variable {sink : Sink} {program : Program} {engine : Engine}

/-- An engine runs a program from the initial state, whatever it has run before. -/
theorem run_eq
    (engine : Engine)
    {limit : Nat}
    {final : State}
    {ending : Ending}
    (run : (State.initial engine.width).run sink program limit = (final, ending))
    (id : String) :
    engine.run sink limit id program =
      (engine.afterRun sink program { id := id, state := final, failure := ending.failure? },
        ending) := by
  have ran : engine.run sink limit id program =
      let result := (State.initial engine.width).run sink program limit
      (engine.afterRun sink program
        { id := id, state := result.1, failure := result.2.failure? }, result.2) := rfl
  rw [ran, run]

/-- An engine keeps the state in which a run ended, and the failure that ended it. -/
theorem run_of_ofFailure
    {limit : Nat}
    {final : State}
    {failure : Option Failure}
    (run : (State.initial engine.width).run sink program limit = (final, .ofFailure failure))
    (id : String) :
    engine.run sink limit id program =
      (engine.afterRun sink program { id := id, state := final, failure := failure },
        .ofFailure failure) := by
  rw [run_eq engine run]
  cases failure <;> rfl

/-- An engine whose run has an end comes to it, if it is given enough room. -/
theorem Ends.exists_ended?
    {final : State}
    {failure : Option Failure}
    (ends : Ends sink program (.initial engine.width) final failure)
    (id : String) :
    ∃ limit, ended? (engine.run sink limit id program) =
      some { id := id, state := final, failure := failure } := by
  obtain ⟨limit, run⟩ := ends.exists_run
  refine ⟨limit, ?_⟩
  rw [run_of_ofFailure run]
  cases failure <;> rfl

/-- What an engine keeps of a run is its end. -/
theorem ends_of_ended?
    {limit : Nat}
    {id : String}
    {latest : Latest}
    (ended : ended? (engine.run sink limit id program) = some latest) :
    Ends sink program (.initial engine.width) latest.state latest.failure := by
  rcases run : (State.initial engine.width).run sink program limit with ⟨final, ending⟩
  rw [run_eq engine run] at ended
  cases ending with
  | finished =>
    cases ended
    exact ends_of_run run
  | failed failure =>
    cases ended
    exact ends_of_run run
  | stopped next => cases ended

end Engines

end Engine
end GlyphStack
