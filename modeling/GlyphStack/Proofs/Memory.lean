import GlyphStack.Engine
import GlyphStack.Proofs.Effects

/-!
# Instructions that only touch the memory

Six kinds steer a run: those that open and close blocks, set marks and jump.
All others are plain.  A plain instruction works on the values, the register and
the output alone.  This part of a state is its memory; the outcomes are kept
with it, since they too say nothing about the place that a run has reached.

The main result is that a plain instruction acts in a run as it acts on the
memory: the open blocks, the marks and the place of the run play no part in it.
-/

namespace GlyphStack

/-- Whether a kind leaves the course of a run alone. -/
def Kind.isPlain : Kind -> Bool
  | .ifOpen | .elseOpen | .endif | .mark | .jump | .jumpIf => false
  | _ => true

namespace Engine

/-- What a run computes with, without its place in the program. -/
structure Memory where
  /-- The values. -/
  stack : Stack Int64
  /-- Whether the conditions closed so far held. -/
  outcomes : Stack Bool
  /-- The register, once something was saved. -/
  register : Option Int64
  /-- The width that pushed values have to fit. -/
  width : Width
  /-- What was printed so far. -/
  output : String
  /-- The pieces of text that were to be printed so far, latest first. -/
  offered : List String
  deriving DecidableEq, Repr

namespace Memory

/-- The memory before the first instruction. -/
def initial (width : Width) : Memory where
  stack := .empty
  outcomes := .empty
  register := none
  width := width
  output := ""
  offered := []

/-- The memory of a machine with the output of its run. -/
def ofMachine (machine : Machine) (output : String) (offered : List String) : Memory where
  stack := machine.stack
  outcomes := machine.outcomes
  register := machine.register
  width := machine.width
  output := output
  offered := offered

/-- The machine of a memory with the given marks. -/
def machine (memory : Memory) (marks : Stack Nat) : Machine where
  stack := memory.stack
  returns := marks
  outcomes := memory.outcomes
  register := memory.register
  width := memory.width

end Memory

namespace State

/-- The memory of a state. -/
def memory (state : State) : Memory :=
  .ofMachine state.machine state.output state.offered

/-- Replace the memory of a state. -/
def withMemory (state : State) (memory : Memory) : State :=
  { state with
    machine := memory.machine state.machine.returns,
    output := memory.output,
    offered := memory.offered }

@[simp] theorem memory_initial (width : Width) :
    (initial width).memory = .initial width := rfl

@[simp] theorem frames_withMemory
    (state : State)
    (memory : Memory) :
    (state.withMemory memory).frames = state.frames := rfl

@[simp] theorem steps_withMemory
    (state : State)
    (memory : Memory) :
    (state.withMemory memory).steps = state.steps := rfl

@[simp] theorem memory_advance (state : State) :
    state.advance.memory = state.memory := rfl

end State

/-- What a plain instruction does to the machine, with the text that it
yields. -/
def plainAction (instruction : Instruction) : Action (Option String) :=
  match instruction.kind with
  | .save => do
    Machine.save
    return none
  | .load => do
    Machine.load
    return none
  | _ => Effect.apply instruction

section PlainAction

variable {instruction : Instruction}

theorem plainAction_save
    (isSave : instruction.kind = .save)
    (machine : Machine) :
    plainAction instruction machine =
      match machine.stack.peek? with
      | none => .error .stackUnderflow machine
      | some value => .ok none { machine with register := some value } := by
  simp only [plainAction, isSave]
  rw [bind_apply, Machine.save_apply]
  cases machine.stack.peek? <;> rfl

theorem plainAction_load
    (isLoad : instruction.kind = .load)
    (machine : Machine) :
    plainAction instruction machine =
      match machine.register with
      | none => .error .unsetRegister machine
      | some value => .ok none { machine with stack := machine.stack.push value } := by
  obtain ⟨stack, returns, outcomes, register, width⟩ := machine
  simp only [plainAction, isLoad]
  rw [bind_apply, Machine.load_apply]
  cases register <;> rfl

theorem plainAction_effect
    (notSave : instruction.kind ≠ .save)
    (notLoad : instruction.kind ≠ .load) :
    plainAction instruction = Effect.apply instruction := by
  unfold plainAction
  split
  · contradiction
  · contradiction
  · rfl

end PlainAction

/-- A plain instruction neither reads nor changes the marks. -/
theorem plainAction_marks
    (instruction : Instruction)
    (machine : Machine)
    (marks : Stack Nat) :
    plainAction instruction { machine with returns := marks } =
      Action.leaving (fun after => { after with returns := marks })
        (plainAction instruction machine) := by
  by_cases isSave : instruction.kind = .save
  · rw [plainAction_save isSave, plainAction_save isSave]
    cases machine.stack.peek? <;> rfl
  by_cases isLoad : instruction.kind = .load
  · obtain ⟨stack, returns, outcomes, register, width⟩ := machine
    rw [plainAction_load isLoad, plainAction_load isLoad]
    cases register <;> rfl
  have kept := Effect.apply_frame instruction machine machine rfl rfl
  have marked :=
    Effect.apply_frame instruction machine { machine with returns := marks } rfl rfl
  rw [plainAction_effect isSave isLoad, marked]
  conv => rhs; rw [kept, Action.leaving_leaving]

/-- What a plain instruction does to a memory: the memory after it and the cause,
if it fails.  A text that the sink refuses is a failure too. -/
def Memory.perform
    (sink : Sink)
    (instruction : Instruction)
    (memory : Memory) : Memory × Option Fault :=
  match plainAction instruction (memory.machine .empty) with
  | .ok none machine => (.ofMachine machine memory.output memory.offered, none)
  | .ok (some piece) machine =>
    let offered := piece :: memory.offered
    if sink.accepts memory.offered piece then
      (.ofMachine machine (memory.output ++ piece) offered, none)
    else
      (.ofMachine machine memory.output offered, some .outputFull)
  | .error fault machine => (.ofMachine machine memory.output memory.offered, some fault)

theorem write_apply
    (sink : Sink)
    (piece : String)
    (state : State) :
    write sink piece state =
      if sink.accepts state.offered piece then
        .ok () { state with output := state.output ++ piece, offered := piece :: state.offered }
      else
        .error .outputFull { state with offered := piece :: state.offered } := by
  rw [write, get_bind_apply]
  cases sink.accepts state.offered piece <;> rfl

/-- Print the text that an action yields, if it yields one. -/
def writeYielded (sink : Sink) : Option String -> Move Unit
  | none => pure ()
  | some piece => write sink piece

/-- A plain instruction runs its action on the machine and prints the text that
the action yields. -/
theorem execute_eq_plainAction
    {instruction : Instruction}
    (isPlain : instruction.kind.isPlain)
    (sink : Sink)
    (stop here : Nat)
    (state : State) :
    execute sink stop here instruction state =
      match plainAction instruction state.machine with
      | .ok none machine => .ok () { state with machine := machine }
      | .ok (some piece) machine => write sink piece { state with machine := machine }
      | .error fault machine => .error fault { state with machine := machine } := by
  by_cases isSave : instruction.kind = .save
  · simp only [execute, isSave]
    rw [plainAction_save isSave, onMachine, Machine.save_apply]
    cases state.machine.stack.peek? <;> rfl
  by_cases isLoad : instruction.kind = .load
  · simp only [execute, isLoad]
    rw [plainAction_load isLoad, onMachine, Machine.load_apply]
    cases state.machine.register <;> rfl
  rw [plainAction_effect isSave isLoad]
  have opened : execute sink stop here instruction =
      onMachine (Effect.apply instruction) >>= writeYielded sink := by
    cases kind : instruction.kind <;> simp_all [execute, Kind.isPlain] <;> rfl
  rw [opened, bind_apply, onMachine]
  cases Effect.apply instruction state.machine with
  | error fault machine => rfl
  | ok yielded machine => cases yielded <;> rfl

/-- A plain instruction acts in a run as it acts on the memory. -/
theorem execute_plain
    {instruction : Instruction}
    (isPlain : instruction.kind.isPlain)
    (sink : Sink)
    (stop here : Nat)
    (state : State) :
    execute sink stop here instruction state =
      match state.memory.perform sink instruction with
      | (memory, none) => .ok () (state.withMemory memory)
      | (memory, some fault) => .error fault (state.withMemory memory) := by
  have marked := plainAction_marks instruction (state.memory.machine .empty)
    state.machine.returns
  change plainAction instruction state.machine = _ at marked
  rw [execute_eq_plainAction isPlain, marked, Memory.perform]
  cases plainAction instruction (state.memory.machine .empty) with
  | error fault machine => rfl
  | ok yielded machine =>
    cases yielded with
    | none => rfl
    | some piece =>
      simp only [Action.leaving, write_apply]
      cases accepted : sink.accepts state.offered piece <;>
        simp [State.memory, Memory.ofMachine, accepted, State.withMemory, Memory.machine]

end Engine
end GlyphStack
