import GlyphStack.Proofs.Runs

/-!
# Instructions that do nothing

A program runs as well without the instructions that do nothing.  Leaving them out
moves the others to smaller indices, and with them the marks that are set at run
time, the place of a failure and the end of the program.

A step of the program is either over such an instruction, which the shorter program
does not notice, or is a step of the shorter program as well.  So the shorter run
follows the longer one.  For the other direction the longer run first catches up: it
passes the instructions that do nothing until it stands at another one or at the end.
-/

namespace GlyphStack

namespace Stack

variable {α β : Type}

/-- Change every value of a stack. -/
def map (change : α -> β) (stack : Stack α) : Stack β :=
  { topDown := stack.topDown.map change }

theorem pop?_map_of_eq_some
    {stack below : Stack α}
    {value : α}
    (change : α -> β)
    (popped : stack.pop? = some (value, below)) :
    (stack.map change).pop? = some (change value, below.map change) := by
  rw [eq_push_of_pop?_eq_some popped]
  rfl

theorem pop?_map_of_eq_none
    {stack : Stack α}
    (change : α -> β)
    (empty : stack.pop? = none) :
    (stack.map change).pop? = none := by
  rw [(pop?_eq_none_iff stack).mp empty]
  rfl

end Stack

namespace Program

/-- A program without the instructions that do nothing. -/
def withoutNonOps (program : Program) : Program :=
  program.filter fun instruction => instruction.kind != .nonOp

/-- The new index of an instruction: the number of instructions in front of it that
do something. -/
def relocate (program : Program) (index : Nat) : Nat :=
  (withoutNonOps (program.take index)).length

variable {program : Program} {index : Nat} {instruction : Instruction}

theorem take_succ
    (found : program[index]? = some instruction) :
    program.take (index + 1) = program.take index ++ [instruction] := by
  rw [List.take_add_one, found]
  rfl

theorem relocate_succ_of_nonOp
    (found : program[index]? = some instruction)
    (isNonOp : instruction.kind = .nonOp) :
    program.relocate (index + 1) = program.relocate index := by
  simp [relocate, withoutNonOps, take_succ found, isNonOp]

theorem relocate_succ
    (found : program[index]? = some instruction)
    (isOp : instruction.kind ≠ .nonOp) :
    program.relocate (index + 1) = program.relocate index + 1 := by
  simp [relocate, withoutNonOps, take_succ found, isOp]

/-- An instruction that does something is found at its new index. -/
theorem getElem?_relocate
    (found : program[index]? = some instruction)
    (isOp : instruction.kind ≠ .nonOp) :
    program.withoutNonOps[program.relocate index]? = some instruction := by
  have split : program.withoutNonOps =
      withoutNonOps (program.take index) ++
        instruction :: withoutNonOps (program.drop (index + 1)) := by
    conv => lhs; rw [← List.take_append_drop (index + 1) program, take_succ found]
    simp [withoutNonOps, isOp]
  rw [split, relocate, List.getElem?_append_right (Nat.le_refl _), Nat.sub_self]
  rfl

/-- The end of the program stays the end. -/
theorem relocate_of_past
    (past : program[index]? = none) :
    program.relocate index = program.withoutNonOps.length := by
  rw [relocate, List.take_of_length_le (List.getElem?_eq_none_iff.mp past)]

end Program

/-- A failure at the new index of its instruction. -/
def Failure.relocated (program : Program) (failure : Failure) : Failure :=
  { failure with index := program.relocate failure.index }

namespace Engine

namespace State

/-- A state of a run without the instructions that do nothing.  The marks and the
place of the run are moved, and the steps are counted anew; all else is the same. -/
def relocated (program : Program) (steps : Nat) (state : State) : State :=
  { state with
    machine := { state.machine with returns := state.machine.returns.map program.relocate }
    index := program.relocate state.index
    steps := steps }

section Relocated

variable (program : Program) (steps : Nat) (state : State)

@[simp] theorem gate_relocated : (state.relocated program steps).gate = state.gate := rfl

theorem relocated_withMemory (memory : Memory) :
    (state.withMemory memory).relocated program steps =
      (state.relocated program steps).withMemory memory := rfl

theorem relocated_withReturns (returns : Stack Nat) :
    (state.withReturns returns).relocated program steps =
      (state.relocated program steps).withReturns (returns.map program.relocate) := rfl

theorem relocated_withOutcomes (outcomes : Stack Bool) :
    (state.withOutcomes outcomes).relocated program steps =
      (state.relocated program steps).withOutcomes outcomes := rfl

theorem relocated_withIndex (index : Nat) :
    (state.withIndex index).relocated program steps =
      (state.relocated program steps).withIndex (program.relocate index) := rfl

theorem relocated_openBlock (frame : Frame) :
    (state.openBlock frame).relocated program steps =
      (state.relocated program steps).openBlock frame := rfl

theorem relocated_closeBlock :
    state.closeBlock.relocated program steps =
      (state.relocated program steps).closeBlock := by
  obtain ⟨machine, frames, index, count, output, offered⟩ := state
  cases frames with
  | nil => rfl
  | cons frame outer =>
    simp only [closeBlock, relocated]
    split <;> rfl

end Relocated

end State

section Steps

variable {sink : Sink} {program : Program} {state after : State} {instruction : Instruction}
  {failure : Option Failure}

/-- Passing an instruction that does something passes it in both programs. -/
theorem State.relocated_advance
    (found : program[state.index]? = some instruction)
    (isOp : instruction.kind ≠ .nonOp)
    (steps : Nat) :
    state.advance.relocated program (steps + 1) = (state.relocated program steps).advance := by
  simp only [relocated, advance, Program.relocate_succ found isOp]

/-- Passing one that does nothing passes none in the shorter program. -/
theorem State.relocated_advance_of_nonOp
    (found : program[state.index]? = some instruction)
    (isNonOp : instruction.kind = .nonOp)
    (steps : Nat) :
    state.advance.relocated program steps = state.relocated program steps := by
  simp only [relocated, advance, Program.relocate_succ_of_nonOp found isNonOp]

theorem State.relocated_skip
    (found : program[state.index]? = some instruction)
    (isOp : instruction.kind ≠ .nonOp)
    (steps : Nat) :
    (state.skip instruction).relocated program (steps + 1) =
      (state.relocated program steps).skip instruction := by
  unfold skip
  dsimp only
  rw [← State.relocated_advance found isOp]
  split
  · rfl
  · rfl
  · exact State.relocated_closeBlock program (steps + 1) state.advance
  · rfl

/-- An instruction that does something does the same at its new index. -/
theorem Performs.relocate
    (performs : Performs sink program state instruction after failure)
    (found : program[state.index]? = some instruction)
    (isOp : instruction.kind ≠ .nonOp)
    (steps : Nat) :
    Performs sink program.withoutNonOps (state.relocated program steps) instruction
      (after.relocated program (steps + 1)) (failure.map (Failure.relocated program)) := by
  have passed := State.relocated_advance found isOp steps
  cases performs with
  | @plain memory fault isPlain performed =>
    rw [State.relocated_withMemory, passed, Option.map_map]
    exact .plain isPlain performed
  | ifOpen isIf peeked =>
    rw [State.relocated_openBlock, passed]
    exact .ifOpen isIf peeked
  | ifUnderflow isIf empty =>
    rw [passed]
    exact .ifUnderflow isIf empty
  | elseOpen isElse popped =>
    rw [State.relocated_openBlock, State.relocated_withOutcomes, passed]
    exact .elseOpen isElse popped
  | elseMissing isElse empty =>
    rw [passed]
    exact .elseMissing isElse empty
  | close isEndif nested =>
    rw [State.relocated_closeBlock, passed]
    exact .close isEndif nested
  | stop isEndif outside =>
    rw [State.relocated_withIndex, passed,
      Program.relocate_of_past (List.getElem?_eq_none (Nat.le_refl program.length))]
    exact .stop isEndif outside
  | mark isMark =>
    rw [State.relocated_withReturns, passed]
    exact .mark isMark
  | jump isJump popped =>
    rw [State.relocated_withIndex, State.relocated_withReturns, passed]
    exact .jump isJump (Stack.pop?_map_of_eq_some program.relocate popped)
  | jumpMissing isJump empty =>
    rw [passed]
    exact .jumpMissing isJump (Stack.pop?_map_of_eq_none program.relocate empty)
  | jumpIfTaken isJumpIf popped peeked truthy =>
    rw [State.relocated_withIndex, State.relocated_withReturns, passed]
    exact .jumpIfTaken isJumpIf (Stack.pop?_map_of_eq_some program.relocate popped) peeked truthy
  | jumpIfPassed isJumpIf popped peeked falsy =>
    rw [State.relocated_withReturns, passed]
    exact .jumpIfPassed isJumpIf (Stack.pop?_map_of_eq_some program.relocate popped) peeked falsy
  | jumpIfMissing isJumpIf empty =>
    rw [passed]
    exact .jumpIfMissing isJumpIf (Stack.pop?_map_of_eq_none program.relocate empty)
  | jumpIfUnderflow isJumpIf popped empty =>
    rw [State.relocated_withReturns, passed]
    exact .jumpIfUnderflow isJumpIf (Stack.pop?_map_of_eq_some program.relocate popped) empty

/-- Whether a state stands at an instruction that does something, or at the end. -/
def State.Awake (program : Program) (state : State) : Prop :=
  ∀ instruction, program[state.index]? = some instruction -> instruction.kind ≠ .nonOp

/-- Where both programs are at the same instruction they make the same step. -/
theorem State.step?_relocated
    (sink : Sink)
    (awake : state.Awake program)
    (steps : Nat) :
    (state.relocated program steps).step? sink program.withoutNonOps =
      (state.step? sink program).map
        (Prod.map (relocated program (steps + 1)) (Option.map (Failure.relocated program))) := by
  cases found : program[state.index]? with
  | none =>
    have past : program.withoutNonOps[(state.relocated program steps).index]? = none := by
      rw [relocated, Program.relocate_of_past found]
      exact List.getElem?_eq_none (Nat.le_refl _)
    simp [step?, found, past]
  | some instruction =>
    have isOp := awake instruction found
    have found' : program.withoutNonOps[(state.relocated program steps).index]? =
        some instruction :=
      Program.getElem?_relocate found isOp
    cases gate : state.gate with
    | false => simp [step?, found, found', gate, relocated_skip found isOp]
    | true =>
      have performs := (performs_perform sink program state instruction).relocate found isOp steps
      simp [step?, found, found', gate, performs.perform_eq, Prod.map]

/-- A step over an instruction that does nothing only passes it. -/
theorem State.step?_of_nonOp
    (sink : Sink)
    (found : program[state.index]? = some instruction)
    (isNonOp : instruction.kind = .nonOp) :
    state.step? sink program = some (state.advance, none) := by
  cases gate : state.gate with
  | false => simp [step?, found, gate, skip, isNonOp]
  | true =>
    have isPlain : instruction.kind.isPlain := by simp [isNonOp, Kind.isPlain]
    have kept : state.memory.perform sink instruction = (state.memory, none) := by
      rw [Memory.perform, plainAction_effect (by simp [isNonOp]) (by simp [isNonOp]),
        Effect.apply_nonOp _ isNonOp]
      rfl
    have restored : state.advance.withMemory state.memory = state.advance := rfl
    simp [step?, found, gate, perform_plain sink program state isPlain, kept, restored]

/-- A state that stands at an instruction that does nothing passes it, unseen by the
shorter program. -/
theorem State.step?_of_not_awake
    (sink : Sink)
    (asleep : ¬ state.Awake program) :
    state.step? sink program = some (state.advance, none) ∧
      ∀ steps, state.advance.relocated program steps = state.relocated program steps := by
  obtain ⟨instruction, found, isNonOp⟩ : ∃ instruction,
      program[state.index]? = some instruction ∧ instruction.kind = .nonOp := by
    simpa [Awake] using asleep
  exact ⟨step?_of_nonOp sink found isNonOp, relocated_advance_of_nonOp found isNonOp⟩

end Steps

section Runs

variable {sink : Sink} {program : Program}

/-- The run without the instructions that do nothing ends as the given run does. -/
theorem Ends.relocate
    {state final : State}
    {failure : Option Failure}
    (ends : Ends sink program state final failure)
    (steps : Nat) :
    ∃ taken, Ends sink program.withoutNonOps (state.relocated program steps)
      (final.relocated program taken) (failure.map (Failure.relocated program)) := by
  induction ends generalizing steps with
  | @finished state past =>
    refine ⟨steps, .finished ?_⟩
    rw [State.relocated, Program.relocate_of_past past]
    exact List.getElem?_eq_none (Nat.le_refl _)
  | @failed state after failure stepped =>
    have awake : state.Awake program := by
      refine Classical.byContradiction fun asleep => ?_
      rw [(State.step?_of_not_awake sink asleep).1] at stepped
      cases stepped
    refine ⟨steps + 1, .failed ?_⟩
    rw [State.step?_relocated sink awake, stepped]
    rfl
  | @step state next final failure stepped ends inductionHypothesis =>
    by_cases awake : state.Awake program
    · obtain ⟨taken, ends'⟩ := inductionHypothesis (steps + 1)
      refine ⟨taken, .step ?_ ends'⟩
      rw [State.step?_relocated sink awake, stepped]
      rfl
    · -- The shorter run waits while the given one passes an instruction.
      obtain ⟨passed, same⟩ := State.step?_of_not_awake sink awake
      rw [passed] at stepped
      cases stepped
      rw [← same]
      exact inductionHypothesis steps

/-- A run passes instructions that do nothing until it stands at another one or at
the end. -/
theorem State.exists_awake
    (sink : Sink)
    (program : Program)
    (state : State) :
    ∃ awake : State, Reaches sink program state awake none ∧ awake.Awake program ∧
      ∀ steps, awake.relocated program steps = state.relocated program steps := by
  induction count : program.length - state.index generalizing state with
  | zero =>
    refine ⟨state, .refl, ?_, fun steps => rfl⟩
    intro instruction found
    have inside := (List.getElem?_eq_some_iff.mp found).1
    omega
  | succ ahead inductionHypothesis =>
    by_cases awake : state.Awake program
    · exact ⟨state, .refl, awake, fun steps => rfl⟩
    · obtain ⟨passed, unseen⟩ := State.step?_of_not_awake sink awake
      have closer : program.length - state.advance.index = ahead := by
        rw [State.index_advance]
        omega
      obtain ⟨awake, reached, isAwake, same⟩ := inductionHypothesis state.advance closer
      refine ⟨awake, .trans (.step .refl passed) reached, isAwake, fun steps => ?_⟩
      rw [same, unseen]

/-- The next step of the shorter run is a step of the given one, once this has passed
the instructions that do nothing. -/
theorem State.exists_step?_relocated
    (sink : Sink)
    (program : Program)
    (state : State)
    (steps : Nat) :
    ∃ awake : State, Reaches sink program state awake none ∧
      (awake.step? sink program).map
          (Prod.map (relocated program (steps + 1)) (Option.map (Failure.relocated program))) =
        (state.relocated program steps).step? sink program.withoutNonOps := by
  obtain ⟨awake, reached, isAwake, same⟩ := state.exists_awake sink program
  exact ⟨awake, reached, by rw [← same, awake.step?_relocated sink isAwake]⟩

/-- If the shorter run ends, so does the given one. -/
theorem Ends.exists_of_relocated
    {state final : State}
    {failure : Option Failure}
    {steps : Nat}
    (ends : Ends sink program.withoutNonOps (state.relocated program steps) final failure) :
    ∃ final failure, Ends sink program state final failure := by
  generalize start_eq : state.relocated program steps = start at ends
  induction ends generalizing state steps with
  | @finished start past =>
    obtain ⟨awake, reached, both⟩ := state.exists_step?_relocated sink program steps
    rw [start_eq, State.step?_eq_none_iff.mpr past, Option.map_eq_none_iff,
      State.step?_eq_none_iff] at both
    exact ⟨awake, none, .of_reached (.finished both) reached⟩
  | @failed start after failure stepped =>
    obtain ⟨awake, reached, both⟩ := state.exists_step?_relocated sink program steps
    rw [start_eq, stepped, Option.map_eq_some_iff] at both
    obtain ⟨⟨after', failure'⟩, stepped', equal⟩ := both
    obtain ⟨cause, rfl, -⟩ := Option.map_eq_some_iff.mp (congrArg Prod.snd equal)
    exact ⟨after', some cause, .of_reached (.failed stepped') reached⟩
  | @step start next final failure stepped ends inductionHypothesis =>
    obtain ⟨awake, reached, both⟩ := state.exists_step?_relocated sink program steps
    rw [start_eq, stepped, Option.map_eq_some_iff] at both
    obtain ⟨⟨after', failure'⟩, stepped', equal⟩ := both
    obtain rfl := Option.map_eq_none_iff.mp (congrArg Prod.snd equal)
    obtain ⟨final', failure'', ends'⟩ := inductionHypothesis (congrArg Prod.fst equal)
    exact ⟨final', failure'', .of_reached (.step stepped' ends') reached⟩

end Runs

/-- Instructions that do nothing can be left out.  A program comes to an end exactly
if it does without them, and then with the same output, values, register, outcomes,
open blocks and cause of failure; the marks, the place of the run and the place of the
failure are those of the moved instructions. -/
theorem nonOps_are_erasable
    (engine : Engine)
    (sink : Sink)
    (id other : String)
    (program : Program) :
    ((∃ limit latest, ended? (engine.run sink limit id program) = some latest) ↔
      ∃ limit latest,
        ended? (engine.run sink limit other program.withoutNonOps) = some latest) ∧
    ∀ limit limit' latest latest',
      ended? (engine.run sink limit id program) = some latest ->
      ended? (engine.run sink limit' other program.withoutNonOps) = some latest' ->
      latest'.state = latest.state.relocated program latest'.state.steps ∧
      latest'.failure = latest.failure.map (Failure.relocated program) := by
  have start : (State.initial engine.width).relocated program 0 = .initial engine.width := by
    simp [State.relocated, State.initial, Program.relocate, Program.withoutNonOps, Machine.new,
      Stack.map, Stack.empty]
  refine ⟨⟨?_, ?_⟩, ?_⟩
  · rintro ⟨limit, latest, ended⟩
    obtain ⟨taken, ends⟩ := (ends_of_ended? ended).relocate 0
    rw [start] at ends
    obtain ⟨limit', ended'⟩ := ends.exists_ended? other
    exact ⟨limit', _, ended'⟩
  · rintro ⟨limit', latest', ended'⟩
    have ends' := ends_of_ended? ended'
    rw [← start] at ends'
    obtain ⟨final, failure, ends⟩ := ends'.exists_of_relocated
    obtain ⟨limit, ended⟩ := ends.exists_ended? id
    exact ⟨limit, _, ended⟩
  · intro limit limit' latest latest' ended ended'
    obtain ⟨taken, ends⟩ := (ends_of_ended? ended).relocate 0
    rw [start] at ends
    obtain ⟨state_eq, failure_eq⟩ := (ends_of_ended? ended').unique ends
    refine ⟨?_, failure_eq⟩
    rw [state_eq]
    rfl

/-- A loop that is run twice, with instructions that do nothing in between, and a
read of the register, which was never set. -/
def idling : Program :=
  [.plain .nonOp .nowhere, { kind := .push, value := 2, position := .nowhere },
    .plain .nonOp .nowhere, .plain .mark .nowhere, .plain .mark .nowhere,
    { kind := .push, value := 1, position := .nowhere }, .plain .nonOp .nowhere,
    .plain .subtract .nowhere, .plain .jumpIf .nowhere, .plain .nonOp .nowhere,
    .plain .load .nowhere]

/-- The mark that is left and the failure move with their instructions. -/
theorem nonOps_are_erasable_idling :
    ∃ limit limit' latest latest',
      ended? ((Engine.new .standard).run .unlimited limit "long" idling) = some latest ∧
      ended? ((Engine.new .standard).run .unlimited limit' "short" idling.withoutNonOps) =
        some latest' ∧
      latest.state.machine.returns.toList = [3] ∧
      latest'.state.machine.returns.toList = [1] ∧
      latest.failure = some ⟨10, .plain .load .nowhere, .unsetRegister⟩ ∧
      latest'.failure = some ⟨6, .plain .load .nowhere, .unsetRegister⟩ := by
  have ends : Ends .unlimited idling (.initial (Engine.new .standard).width) _ (some _) :=
    .step rfl (.step rfl (.step rfl (.step rfl (.step rfl (.step rfl (.step rfl (.step rfl
      (.step rfl (.step rfl (.step rfl (.step rfl (.step rfl (.step rfl (.step rfl
        (.failed rfl)))))))))))))))
  obtain ⟨limit, ended⟩ := ends.exists_ended? "long"
  obtain ⟨both, agree⟩ :=
    nonOps_are_erasable (.new .standard) .unlimited "long" "short" idling
  obtain ⟨limit', latest', ended'⟩ := both.mp ⟨limit, _, ended⟩
  obtain ⟨state_eq, failure_eq⟩ := agree _ _ _ _ ended ended'
  refine ⟨limit, limit', _, latest', ended, ended', rfl, ?_, rfl, ?_⟩
  · rw [state_eq]
    rfl
  · rw [failure_eq]
    rfl

end Engine
end GlyphStack
