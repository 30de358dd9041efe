import GlyphStack.Machine

/-!
# The state of a run

A run moves through its program by index.  Blocks that are open are kept as
frames, innermost first.  The innermost frame is the gate: while its condition
is false, instructions are skipped and only the nesting of blocks is followed.
-/

namespace GlyphStack
namespace Engine

/-- What opened a block. -/
inductive Opener where
  /-- A condition on the top value. -/
  | ifBlock
  /-- The alternative to an earlier condition. -/
  | elseBlock
  deriving DecidableEq, Repr

/-- An open block. -/
structure Frame where
  /-- What opened the block. -/
  opener : Opener
  /-- Whether the instructions of the block run. -/
  condition : Bool
  /-- Whether the block was opened by an instruction that ran. -/
  live : Bool
  deriving DecidableEq, Repr

/-- The state of a run between two instructions. -/
structure State where
  /-- The memory. -/
  machine : Machine
  /-- The open blocks, innermost first. -/
  frames : List Frame
  /-- The index of the next instruction. -/
  index : Nat
  /-- The number of instructions passed so far, skipped ones included. -/
  steps : Nat
  /-- What was printed so far. -/
  output : String
  /-- The pieces of text that were to be printed so far, latest first. -/
  offered : List String
  deriving DecidableEq, Repr

namespace State

/-- The state before the first instruction. -/
def initial (width : Width) : State where
  machine := .new width
  frames := []
  index := 0
  steps := 0
  output := ""
  offered := []

/-- Whether the next instruction runs. -/
def gate (state : State) : Bool :=
  match state.frames with
  | [] => true
  | frame :: _ => frame.condition

/-- Pass the next instruction. -/
def advance (state : State) : State :=
  { state with index := state.index + 1, steps := state.steps + 1 }

/-- Open a block. -/
def openBlock (state : State) (frame : Frame) : State :=
  { state with frames := frame :: state.frames }

/-- Close the innermost block.  A condition that ran is recorded, so that a
later alternative can go by it. -/
def closeBlock (state : State) : State :=
  match state.frames with
  | [] => state
  | frame :: outer =>
    let machine :=
      if frame.opener = .ifBlock ∧ frame.live then
        { state.machine with outcomes := state.machine.outcomes.push frame.condition }
      else
        state.machine
    { state with frames := outer, machine := machine }

/-- Pass the next instruction without running it.  Only the nesting of blocks is
followed. -/
def skip (state : State) (instruction : Instruction) : State :=
  let passed := state.advance
  match instruction.kind with
  | .ifOpen => passed.openBlock { opener := .ifBlock, condition := false, live := false }
  | .elseOpen => passed.openBlock { opener := .elseBlock, condition := false, live := false }
  | .endif => passed.closeBlock
  | _ => passed

@[simp]
theorem index_closeBlock (state : State) : state.closeBlock.index = state.index := by
  unfold closeBlock
  split <;> rfl

@[simp]
theorem index_skip (state : State) (instruction : Instruction) :
    (state.skip instruction).index = state.index + 1 := by
  unfold skip
  split <;> simp [advance, openBlock]

end State

end Engine
end GlyphStack
