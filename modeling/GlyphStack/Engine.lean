import GlyphStack.Effect
import GlyphStack.Engine.State

/-!
# Running programs

An engine runs a program on a fresh machine, instruction by instruction, until
the program ends or an instruction fails.  The output goes to a sink, which may
refuse what is written.  A program may run forever, so a run takes a limit on
the number of instructions that it may execute.  An engine keeps all that it has
of its latest run and sets it back when it runs again.
-/

namespace GlyphStack
namespace Engine

/-- Where the output of runs goes.  A sink is offered pieces of text one after
another.  It takes a piece or refuses it as a whole. -/
structure Sink where
  /-- Whether a piece is taken after those that were offered before, latest
  first. -/
  accepts : (offered : List String) -> (piece : String) -> Bool

namespace Sink

/-- A sink that takes everything. -/
def unlimited : Sink :=
  { accepts := fun _ _ => true }

/-- How many bytes are held where there is room for a limited number. -/
def held (bytes : Nat) : (offered : List String) -> Nat
  | [] => 0
  | piece :: earlier =>
    let before := held bytes earlier
    if before + piece.utf8ByteSize ≤ bytes then before + piece.utf8ByteSize else before

/-- A sink that holds a limited number of bytes. -/
def limited (bytes : Nat) : Sink :=
  { accepts := fun offered piece => held bytes offered + piece.utf8ByteSize ≤ bytes }

/-- A sink as it is after some pieces were offered to it, latest first. -/
def after (sink : Sink) (earlier : List String) : Sink :=
  { accepts := fun offered piece => sink.accepts (offered ++ earlier) piece }

end Sink

/-- An action on the state of a run. -/
abbrev Move (α : Type) := EStateM Fault State α

/-- An action on the machine of a run. -/
def onMachine {α : Type} (action : Action α) : Move α := fun state =>
  match action state.machine with
  | .ok result machine => .ok result { state with machine := machine }
  | .error fault machine => .error fault { state with machine := machine }

/-- Print a piece of text. -/
def write (sink : Sink) (piece : String) : Move Unit := do
  let state <- get
  let offered := piece :: state.offered
  if sink.accepts state.offered piece then
    set { state with output := state.output ++ piece, offered := offered }
  else
    set { state with offered := offered }
    throw .outputFull

/-- Remove the latest mark. -/
def popMark (missing : MissingControl) : Action Nat := do
  let machine <- get
  match machine.returns.pop? with
  | none => throw (.emptyControlStack missing)
  | some (mark, below) =>
    set { machine with returns := below }
    return mark

/-- Remove the latest outcome. -/
def popOutcome : Action Bool := do
  let machine <- get
  match machine.outcomes.pop? with
  | none => throw (.emptyControlStack .outcome)
  | some (outcome, below) =>
    set { machine with outcomes := below }
    return outcome

/-- Go on at another instruction. -/
def goTo (index : Nat) : Move Unit :=
  modify fun state => { state with index := index }

/-- Run one instruction of a program that ends at `stop`.  The state has already
passed the instruction, which stands at `here`.  A block closed while none is
open ends the program. -/
def execute
    (sink : Sink)
    (stop : Nat)
    (here : Nat)
    (instruction : Instruction) : Move Unit := do
  match instruction.kind with
  | .ifOpen =>
    let top <- onMachine Machine.peek
    modify fun state => state.openBlock
      { opener := .ifBlock, condition := Arithmetic.truthy top, live := true }
  | .elseOpen =>
    let taken <- onMachine popOutcome
    modify fun state => state.openBlock
      { opener := .elseBlock, condition := !taken, live := true }
  | .endif =>
    let state <- get
    if state.frames.isEmpty then
      goTo stop
    else
      set state.closeBlock
  | .mark =>
    onMachine (modify fun machine => { machine with returns := machine.returns.push here })
  | .jump =>
    let mark <- onMachine (popMark .mark)
    goTo mark
  | .jumpIf =>
    let mark <- onMachine (popMark .conditionalMark)
    let top <- onMachine Machine.peek
    if Arithmetic.truthy top then
      goTo mark
  | .save => onMachine Machine.save
  | .load => onMachine Machine.load
  | _ =>
    let yielded <- onMachine (Effect.apply instruction)
    match yielded with
    | none => pure ()
    | some piece => write sink piece

/-- Run the instruction that stands next in a program that ends at `stop`, with
the gate open. -/
def State.performTo
    (sink : Sink)
    (stop : Nat)
    (instruction : Instruction)
    (state : State) : State × Option Failure :=
  match execute sink stop state.index instruction state.advance with
  | .ok () after => (after, none)
  | .error fault after =>
    (after, some { index := state.index, instruction := instruction, fault := fault })

/-- Run the instruction that stands next, with the gate open. -/
def State.perform
    (sink : Sink)
    (program : Program)
    (instruction : Instruction)
    (state : State) : State × Option Failure :=
  state.performTo sink program.length instruction

/-- One step of a run: the state after it and the failure, if it failed.  There
is no step past the end of the program. -/
def State.step?
    (sink : Sink)
    (program : Program)
    (state : State) : Option (State × Option Failure) :=
  match program[state.index]? with
  | none => none
  | some instruction =>
    if state.gate then
      some (state.perform sink program instruction)
    else
      some (state.skip instruction, none)

/-- An instruction about to be executed. -/
structure Moment where
  /-- The index of the instruction. -/
  index : Nat
  /-- The instruction. -/
  instruction : Instruction
  /-- The state, which has already passed the instruction. -/
  state : State
  deriving DecidableEq, Repr

/-- How a run came to its end. -/
inductive Ending where
  /-- The end of the program was reached. -/
  | finished
  /-- An instruction failed. -/
  | failed (failure : Failure)
  /-- The limit was reached right before an instruction was executed. -/
  | stopped (next : Moment)
  deriving DecidableEq, Repr

/-- The moment at which an instruction is about to be executed in a state. -/
def State.moment (instruction : Instruction) (state : State) : Moment where
  index := state.index
  instruction := instruction
  state := state.advance

/-- Run a program that ends at `stop` from a state.  The limit counts the
instructions that are executed; skipped instructions are free.  The run stops
right before it would execute one instruction more, which it has then already
passed. -/
def State.runTo
    (sink : Sink)
    (stop : Nat)
    (program : Program)
    (limit : Nat)
    (state : State) : State × Ending :=
  match _found : program[state.index]? with
  | none => (state, .finished)
  | some instruction =>
    if state.gate then
      match limit with
      | 0 => (state.advance, .stopped (state.moment instruction))
      | limit + 1 =>
        match state.performTo sink stop instruction with
        | (after, none) => after.runTo sink stop program limit
        | (after, some failure) => (after, .failed failure)
    else
      (state.skip instruction).runTo sink stop program limit
termination_by (limit, program.length - state.index)
decreasing_by
  · exact Prod.Lex.left _ _ (Nat.lt_succ_self limit)
  · have inside : state.index < program.length :=
      (List.getElem?_eq_some_iff.mp _found).1
    apply Prod.Lex.right
    rw [State.index_skip]
    omega

/-- Run a program from a state to its end. -/
def State.run
    (sink : Sink)
    (program : Program)
    (limit : Nat)
    (state : State) : State × Ending :=
  state.runTo sink program.length program limit

/-- The instructions that a run from a state executes, in order. -/
def State.moments
    (sink : Sink)
    (program : Program)
    (limit : Nat)
    (state : State) : List Moment :=
  match _found : program[state.index]? with
  | none => []
  | some instruction =>
    if state.gate then
      match limit with
      | 0 => []
      | limit + 1 =>
        state.moment instruction ::
          match state.perform sink program instruction with
          | (after, none) => after.moments sink program limit
          | (_, some _) => []
    else
      (state.skip instruction).moments sink program limit
termination_by (limit, program.length - state.index)
decreasing_by
  · exact Prod.Lex.left _ _ (Nat.lt_succ_self limit)
  · have inside : state.index < program.length :=
      (List.getElem?_eq_some_iff.mp _found).1
    apply Prod.Lex.right
    rw [State.index_skip]
    omega

end Engine

/-- The failure that ended a run, if one did. -/
def Engine.Ending.failure? : Engine.Ending -> Option Failure
  | .failed failure => some failure
  | .finished | .stopped _ => none

/-- An engine keeps its settings, and what it has of the current or latest run. -/
structure Engine where
  /-- Where output goes. -/
  out : Engine.Sink
  /-- The width that values have to fit. -/
  width : Width
  /-- The memory, once there was a run. -/
  machine : Option Machine
  /-- The open blocks, innermost first. -/
  frames : List Engine.Frame
  /-- The index of the next instruction. -/
  index : Nat
  /-- The index at which the program ends. -/
  stop : Nat
  /-- The number of instructions passed. -/
  steps : Nat
  /-- The name of the run, which is empty before the first. -/
  runId : String
  /-- The failure that ended the run, if one did. -/
  failure : Option Failure
  /-- What the run has printed. -/
  output : String
  /-- The pieces of text that were to be printed, latest first. -/
  offered : List String

/-- What an engine keeps of a run. -/
structure Engine.Latest where
  /-- The name of the run. -/
  id : String
  /-- The state at its end. -/
  state : Engine.State
  /-- The failure that ended it, if one did. -/
  failure : Option Failure

namespace Engine

/-- An engine that has run nothing and prints to the given sink. -/
def newTo (out : Sink) (width : Width) : Engine where
  out := out
  width := width
  machine := none
  frames := []
  index := 0
  stop := 0
  steps := 0
  runId := ""
  failure := none
  output := ""
  offered := []

/-- An engine that has run nothing and prints without limit. -/
def new (width : Width) : Engine :=
  newTo .unlimited width

/-- The state of a run that works on the given machine. -/
def stateOn (engine : Engine) (machine : Machine) : State where
  machine := machine
  frames := engine.frames
  index := engine.index
  steps := engine.steps
  output := engine.output
  offered := engine.offered

/-- The current or latest run, once there was one. -/
def latest (engine : Engine) : Option Latest :=
  engine.machine.map fun machine =>
    { id := engine.runId, state := engine.stateOn machine, failure := engine.failure }

/-- Get ready for a run on the given machine: set back what an earlier run has
left. -/
def reset
    (engine : Engine)
    (machine : Machine)
    (id : String)
    (program : Program) : Engine :=
  { engine with
    machine := some machine,
    frames := engine.frames.take 0,
    index := 0,
    stop := program.length,
    steps := 0,
    runId := id,
    failure := none,
    output := "",
    offered := [] }

/-- Keep the state at the end of a run and the failure that ended it.  The sink
has been offered all that the run was to print. -/
def keep (engine : Engine) (final : State) (failure : Option Failure) : Engine :=
  { engine with
    out := engine.out.after final.offered,
    machine := some final.machine,
    frames := final.frames,
    index := final.index,
    steps := final.steps,
    failure := failure,
    output := final.output,
    offered := final.offered }

/-- Run a program from its first instruction, on a new machine and under the given
name. -/
def runNext
    (engine : Engine)
    (limit : Nat)
    (id : String)
    (program : Program) : Engine × Ending :=
  let machine := Machine.new engine.width
  let ready := engine.reset machine id program
  let (final, ending) := (ready.stateOn machine).runTo ready.out ready.stop program limit
  (ready.keep final ending.failure?, ending)

/-- Run a program with its output to the given sink. -/
def run
    (engine : Engine)
    (sink : Sink)
    (limit : Nat)
    (id : String)
    (program : Program) : Engine × Ending :=
  { engine with out := sink }.runNext limit id program

end Engine

end GlyphStack
