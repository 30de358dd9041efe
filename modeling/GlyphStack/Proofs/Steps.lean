import GlyphStack.Proofs.Memory

/-!
# Steps of a run

One step of a run either skips the next instruction, or runs it and moves on, or
runs it and fails.  The relation `Transition` lists all that a step can do, one
rule for each case, and a step is shown to follow exactly these rules.  What
every step keeps is then shown by going through the rules.
-/

namespace GlyphStack

/-- The kinds that are not plain. -/
theorem Kind.steering_cases
    {kind : Kind}
    (steers : ¬ kind.isPlain) :
    kind = .ifOpen ∨ kind = .elseOpen ∨ kind = .endif ∨ kind = .mark ∨ kind = .jump ∨
      kind = .jumpIf := by
  cases kind <;> simp_all [isPlain]

namespace Engine

namespace State

/-- Replace the marks of a state. -/
def withReturns (state : State) (returns : Stack Nat) : State :=
  { state with machine := { state.machine with returns := returns } }

/-- Replace the outcomes of a state. -/
def withOutcomes (state : State) (outcomes : Stack Bool) : State :=
  { state with machine := { state.machine with outcomes := outcomes } }

/-- Go on at another instruction. -/
def withIndex (state : State) (index : Nat) : State :=
  { state with index := index }

/-- The failure of the next instruction. -/
def failure
    (state : State)
    (instruction : Instruction)
    (fault : Fault) : Failure where
  index := state.index
  instruction := instruction
  fault := fault

section Fields

variable (state : State)

@[simp] theorem frames_withReturns (returns : Stack Nat) :
    (state.withReturns returns).frames = state.frames := rfl

@[simp] theorem index_withReturns (returns : Stack Nat) :
    (state.withReturns returns).index = state.index := rfl

@[simp] theorem steps_withReturns (returns : Stack Nat) :
    (state.withReturns returns).steps = state.steps := rfl

@[simp] theorem returns_withReturns (returns : Stack Nat) :
    (state.withReturns returns).machine.returns = returns := rfl

@[simp] theorem frames_withOutcomes (outcomes : Stack Bool) :
    (state.withOutcomes outcomes).frames = state.frames := rfl

@[simp] theorem steps_withOutcomes (outcomes : Stack Bool) :
    (state.withOutcomes outcomes).steps = state.steps := rfl

@[simp] theorem frames_withIndex (index : Nat) :
    (state.withIndex index).frames = state.frames := rfl

@[simp] theorem index_withIndex (index : Nat) :
    (state.withIndex index).index = index := rfl

@[simp] theorem steps_withIndex (index : Nat) :
    (state.withIndex index).steps = state.steps := rfl

@[simp] theorem returns_withIndex (index : Nat) :
    (state.withIndex index).machine.returns = state.machine.returns := rfl

@[simp] theorem frames_advance : state.advance.frames = state.frames := rfl

@[simp] theorem index_advance : state.advance.index = state.index + 1 := rfl

@[simp] theorem steps_advance : state.advance.steps = state.steps + 1 := rfl

@[simp] theorem machine_advance : state.advance.machine = state.machine := rfl

@[simp] theorem frames_openBlock (frame : Frame) :
    (state.openBlock frame).frames = frame :: state.frames := rfl

@[simp] theorem index_openBlock (frame : Frame) :
    (state.openBlock frame).index = state.index := rfl

@[simp] theorem steps_openBlock (frame : Frame) :
    (state.openBlock frame).steps = state.steps := rfl

@[simp] theorem machine_openBlock (frame : Frame) :
    (state.openBlock frame).machine = state.machine := rfl

@[simp] theorem frames_closeBlock : state.closeBlock.frames = state.frames.tail := by
  unfold closeBlock
  split <;> simp_all

@[simp] theorem steps_closeBlock : state.closeBlock.steps = state.steps := by
  unfold closeBlock
  split <;> rfl

@[simp] theorem returns_closeBlock :
    state.closeBlock.machine.returns = state.machine.returns := by
  unfold closeBlock
  split
  · rfl
  · dsimp only
    split <;> rfl

@[simp] theorem steps_skip (instruction : Instruction) :
    (state.skip instruction).steps = state.steps + 1 := by
  unfold skip
  split <;> simp

end Fields

section Perform

variable {instruction : Instruction} (sink : Sink) (program : Program) (state : State)

theorem perform_plain (isPlain : instruction.kind.isPlain) :
    state.perform sink program instruction =
      (state.advance.withMemory (state.memory.perform sink instruction).1,
        (state.memory.perform sink instruction).2.map (state.failure instruction)) := by
  rw [perform, performTo, execute_plain isPlain, memory_advance]
  obtain ⟨memory, fault⟩ := state.memory.perform sink instruction
  cases fault <;> rfl

theorem perform_ifOpen (isIf : instruction.kind = .ifOpen) :
    state.perform sink program instruction =
      match state.machine.stack.peek? with
      | none => (state.advance, some (state.failure instruction .stackUnderflow))
      | some top =>
        (state.advance.openBlock
          { opener := .ifBlock, condition := Arithmetic.truthy top, live := true }, none) := by
  simp only [perform, performTo, execute, isIf]
  rw [bind_apply, onMachine, Machine.peek_apply, machine_advance]
  cases state.machine.stack.peek? <;> rfl

theorem perform_elseOpen (isElse : instruction.kind = .elseOpen) :
    state.perform sink program instruction =
      match state.machine.outcomes.pop? with
      | none => (state.advance, some (state.failure instruction (.emptyControlStack .outcome)))
      | some (taken, below) =>
        ((state.advance.withOutcomes below).openBlock
          { opener := .elseBlock, condition := !taken, live := true }, none) := by
  simp only [perform, performTo, execute, isElse]
  rw [bind_apply, onMachine, popOutcome, get_bind_apply, machine_advance]
  cases state.machine.outcomes.pop? <;> rfl

theorem perform_endif (isEndif : instruction.kind = .endif) :
    state.perform sink program instruction =
      (if state.frames.isEmpty then state.advance.withIndex program.length
        else state.advance.closeBlock, none) := by
  simp only [perform, performTo, execute, isEndif]
  rw [get_bind_apply, frames_advance]
  cases state.frames.isEmpty <;> rfl

theorem perform_mark (isMark : instruction.kind = .mark) :
    state.perform sink program instruction =
      (state.advance.withReturns (state.machine.returns.push state.index), none) := by
  simp only [perform, performTo, execute, isMark]
  rfl

theorem popMark_apply (missing : MissingControl) (machine : Machine) :
    popMark missing machine =
      match machine.returns.pop? with
      | none => .error (.emptyControlStack missing) machine
      | some (mark, below) => .ok mark { machine with returns := below } := by
  rw [popMark, get_bind_apply]
  cases machine.returns.pop? <;> rfl

theorem perform_jump (isJump : instruction.kind = .jump) :
    state.perform sink program instruction =
      match state.machine.returns.pop? with
      | none => (state.advance, some (state.failure instruction (.emptyControlStack .mark)))
      | some (mark, below) => ((state.advance.withReturns below).withIndex mark, none) := by
  simp only [perform, performTo, execute, isJump]
  rw [bind_apply, onMachine, popMark_apply, machine_advance]
  cases state.machine.returns.pop? <;> rfl

theorem perform_jumpIf (isJumpIf : instruction.kind = .jumpIf) :
    state.perform sink program instruction =
      match state.machine.returns.pop? with
      | none =>
        (state.advance, some (state.failure instruction (.emptyControlStack .conditionalMark)))
      | some (mark, below) =>
        match state.machine.stack.peek? with
        | none =>
          (state.advance.withReturns below, some (state.failure instruction .stackUnderflow))
        | some top =>
          (if Arithmetic.truthy top then (state.advance.withReturns below).withIndex mark
            else state.advance.withReturns below, none) := by
  simp only [perform, performTo, execute, isJumpIf]
  rw [bind_apply, onMachine, popMark_apply, machine_advance]
  cases state.machine.returns.pop? with
  | none => rfl
  | some popped =>
    dsimp only
    rw [bind_apply, onMachine, Machine.peek_apply]
    dsimp only
    cases state.machine.stack.peek? with
    | none => rfl
    | some top => cases truth : Arithmetic.truthy top <;> simp [truth] <;> rfl

end Perform

end State

/-- All that an instruction can do when the gate is open: the state after it and
the failure, if it fails. -/
inductive Performs
    (sink : Sink)
    (program : Program)
    (state : State)
    (instruction : Instruction) : State -> Option Failure -> Prop
  /-- A plain instruction works on the memory. -/
  | plain {memory : Memory} {fault : Option Fault}
      (isPlain : instruction.kind.isPlain)
      (performed : state.memory.perform sink instruction = (memory, fault)) :
      Performs sink program state instruction (state.advance.withMemory memory)
        (fault.map (state.failure instruction))
  | ifOpen {top : Int64}
      (isIf : instruction.kind = .ifOpen)
      (peeked : state.machine.stack.peek? = some top) :
      Performs sink program state instruction
        (state.advance.openBlock
          { opener := .ifBlock, condition := Arithmetic.truthy top, live := true })
        none
  | ifUnderflow
      (isIf : instruction.kind = .ifOpen)
      (empty : state.machine.stack.peek? = none) :
      Performs sink program state instruction state.advance
        (some (state.failure instruction .stackUnderflow))
  | elseOpen {taken : Bool} {below : Stack Bool}
      (isElse : instruction.kind = .elseOpen)
      (popped : state.machine.outcomes.pop? = some (taken, below)) :
      Performs sink program state instruction
        ((state.advance.withOutcomes below).openBlock
          { opener := .elseBlock, condition := !taken, live := true })
        none
  | elseMissing
      (isElse : instruction.kind = .elseOpen)
      (empty : state.machine.outcomes.pop? = none) :
      Performs sink program state instruction state.advance
        (some (state.failure instruction (.emptyControlStack .outcome)))
  /-- An endif closes the innermost block. -/
  | close
      (isEndif : instruction.kind = .endif)
      (nested : state.frames ≠ []) :
      Performs sink program state instruction state.advance.closeBlock none
  /-- An endif outside all blocks ends the program. -/
  | stop
      (isEndif : instruction.kind = .endif)
      (outside : state.frames = []) :
      Performs sink program state instruction (state.advance.withIndex program.length) none
  | mark
      (isMark : instruction.kind = .mark) :
      Performs sink program state instruction
        (state.advance.withReturns (state.machine.returns.push state.index)) none
  | jump {mark : Nat} {below : Stack Nat}
      (isJump : instruction.kind = .jump)
      (popped : state.machine.returns.pop? = some (mark, below)) :
      Performs sink program state instruction
        ((state.advance.withReturns below).withIndex mark) none
  | jumpMissing
      (isJump : instruction.kind = .jump)
      (empty : state.machine.returns.pop? = none) :
      Performs sink program state instruction state.advance
        (some (state.failure instruction (.emptyControlStack .mark)))
  | jumpIfTaken {mark : Nat} {below : Stack Nat} {top : Int64}
      (isJumpIf : instruction.kind = .jumpIf)
      (popped : state.machine.returns.pop? = some (mark, below))
      (peeked : state.machine.stack.peek? = some top)
      (truthy : Arithmetic.truthy top = true) :
      Performs sink program state instruction
        ((state.advance.withReturns below).withIndex mark) none
  | jumpIfPassed {mark : Nat} {below : Stack Nat} {top : Int64}
      (isJumpIf : instruction.kind = .jumpIf)
      (popped : state.machine.returns.pop? = some (mark, below))
      (peeked : state.machine.stack.peek? = some top)
      (falsy : Arithmetic.truthy top = false) :
      Performs sink program state instruction (state.advance.withReturns below) none
  | jumpIfMissing
      (isJumpIf : instruction.kind = .jumpIf)
      (empty : state.machine.returns.pop? = none) :
      Performs sink program state instruction state.advance
        (some (state.failure instruction (.emptyControlStack .conditionalMark)))
  /-- A conditional jump that has no value to look at has already lost its
  mark. -/
  | jumpIfUnderflow {mark : Nat} {below : Stack Nat}
      (isJumpIf : instruction.kind = .jumpIf)
      (popped : state.machine.returns.pop? = some (mark, below))
      (empty : state.machine.stack.peek? = none) :
      Performs sink program state instruction (state.advance.withReturns below)
        (some (state.failure instruction .stackUnderflow))

/-- The rules give every outcome of an instruction. -/
theorem performs_perform
    (sink : Sink)
    (program : Program)
    (state : State)
    (instruction : Instruction) :
    Performs sink program state instruction
      (state.perform sink program instruction).1
      (state.perform sink program instruction).2 := by
  by_cases isPlain : instruction.kind.isPlain
  · rw [State.perform_plain sink program state isPlain]
    exact .plain isPlain rfl
  rcases Kind.steering_cases isPlain with isIf | isElse | isEndif | isMark | isJump | isJumpIf
  · rw [State.perform_ifOpen sink program state isIf]
    cases peeked : state.machine.stack.peek? with
    | none => exact .ifUnderflow isIf peeked
    | some top => exact .ifOpen isIf peeked
  · rw [State.perform_elseOpen sink program state isElse]
    cases popped : state.machine.outcomes.pop? with
    | none => exact .elseMissing isElse popped
    | some result => exact .elseOpen isElse popped
  · rw [State.perform_endif sink program state isEndif]
    cases frames : state.frames with
    | nil => exact .stop isEndif frames
    | cons frame outer => exact .close isEndif (by simp [frames])
  · rw [State.perform_mark sink program state isMark]
    exact .mark isMark
  · rw [State.perform_jump sink program state isJump]
    cases popped : state.machine.returns.pop? with
    | none => exact .jumpMissing isJump popped
    | some result => exact .jump isJump popped
  · rw [State.perform_jumpIf sink program state isJumpIf]
    cases popped : state.machine.returns.pop? with
    | none => exact .jumpIfMissing isJumpIf popped
    | some result =>
      cases peeked : state.machine.stack.peek? with
      | none => exact .jumpIfUnderflow isJumpIf popped peeked
      | some top =>
        cases truth : Arithmetic.truthy top with
        | true => simpa [truth] using .jumpIfTaken isJumpIf popped peeked truth
        | false => simpa [truth] using .jumpIfPassed isJumpIf popped peeked truth

/-- The rules give nothing but the outcome of an instruction. -/
theorem Performs.perform_eq
    {sink : Sink}
    {program : Program}
    {state after : State}
    {instruction : Instruction}
    {failure : Option Failure}
    (performs : Performs sink program state instruction after failure) :
    state.perform sink program instruction = (after, failure) := by
  cases performs with
  | plain isPlain performed =>
    rw [State.perform_plain sink program state isPlain, performed]
  | ifOpen isIf peeked => rw [State.perform_ifOpen sink program state isIf, peeked]
  | ifUnderflow isIf empty => rw [State.perform_ifOpen sink program state isIf, empty]
  | elseOpen isElse popped => rw [State.perform_elseOpen sink program state isElse, popped]
  | elseMissing isElse empty => rw [State.perform_elseOpen sink program state isElse, empty]
  | close isEndif nested =>
    rw [State.perform_endif sink program state isEndif, if_neg (by simpa using nested)]
  | stop isEndif outside =>
    rw [State.perform_endif sink program state isEndif, if_pos (by simp [outside])]
  | mark isMark => rw [State.perform_mark sink program state isMark]
  | jump isJump popped => rw [State.perform_jump sink program state isJump, popped]
  | jumpMissing isJump empty => rw [State.perform_jump sink program state isJump, empty]
  | jumpIfTaken isJumpIf popped peeked truthy =>
    rw [State.perform_jumpIf sink program state isJumpIf, popped]
    simp [peeked, truthy]
  | jumpIfPassed isJumpIf popped peeked falsy =>
    rw [State.perform_jumpIf sink program state isJumpIf, popped]
    simp [peeked, falsy]
  | jumpIfMissing isJumpIf empty =>
    rw [State.perform_jumpIf sink program state isJumpIf, empty]
  | jumpIfUnderflow isJumpIf popped empty =>
    rw [State.perform_jumpIf sink program state isJumpIf, popped]
    simp [empty]

/-- All that one step can do. -/
inductive Transition
    (sink : Sink)
    (program : Program)
    (state : State) : State -> Option Failure -> Prop
  /-- With the gate closed only the nesting of blocks is followed. -/
  | skip {instruction : Instruction}
      (found : program[state.index]? = some instruction)
      (closed : state.gate = false) :
      Transition sink program state (state.skip instruction) none
  /-- With the gate open the instruction runs. -/
  | perform {instruction : Instruction} {after : State} {failure : Option Failure}
      (found : program[state.index]? = some instruction)
      (opened : state.gate = true)
      (performs : Performs sink program state instruction after failure) :
      Transition sink program state after failure

/-- A step follows the rules, and whatever the rules allow is a step. -/
theorem step?_eq_some_iff
    {sink : Sink}
    {program : Program}
    {state after : State}
    {failure : Option Failure} :
    state.step? sink program = some (after, failure) ↔
      Transition sink program state after failure := by
  constructor
  · intro stepped
    unfold State.step? at stepped
    cases found : program[state.index]? with
    | none => simp [found] at stepped
    | some instruction =>
      cases gate : state.gate with
      | true =>
        simp only [found, gate, if_true, Option.some.injEq] at stepped
        refine .perform found gate ?_
        simpa [stepped] using performs_perform sink program state instruction
      | false =>
        simp only [found, gate, Bool.false_eq_true, if_false, Option.some.injEq,
          Prod.mk.injEq] at stepped
        obtain ⟨rfl, rfl⟩ := stepped
        exact .skip found gate
  · intro transition
    cases transition with
    | skip found closed => simp [State.step?, found, closed]
    | perform found opened performs =>
      simp [State.step?, found, opened, performs.perform_eq]

end Engine
end GlyphStack
