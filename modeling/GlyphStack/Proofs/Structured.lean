import GlyphStack.Proofs.Memory

/-!
# Structured code

Structured code is built from plain instructions by branches, alternatives and
loops, which may be nested in any way.  Its meaning is given by recursion over
its structure: there are no marks, no jumps, no open blocks and no place in a
program.  Only loops need not end, so the interpreter takes a bound on the rounds
of a loop and gives no outcome if a loop needs more.

Written out in order, structured code is a program: a branch becomes `if`, its
body and `endif`, an alternative becomes `else`, its body and `endif`, and a loop
becomes a mark, its body and a conditional jump.
-/

namespace GlyphStack

/-- An instruction of a given kind. -/
abbrev Instruction.Of (kind : Kind) :=
  { instruction : Instruction // instruction.kind = kind }

/-- An instruction that leaves the course of a run alone. -/
abbrev Instruction.Plain :=
  { instruction : Instruction // instruction.kind.isPlain }

/-- A body between an opener and a closer, and what follows. -/
def Program.bracketed
    (opener : Instruction)
    (body : Program)
    (closer : Instruction)
    (rest : Program) : Program :=
  opener :: (body ++ closer :: rest)

/-- Whether the instructions of a program from an index on begin with the given
ones. -/
def Program.HasAt (program : Program) (start : Nat) : Program -> Prop
  | [] => True
  | instruction :: rest =>
    program[start]? = some instruction ∧ program.HasAt (start + 1) rest

namespace Program

theorem hasAt_append
    (program : Program)
    (start : Nat)
    (first rest : Program) :
    program.HasAt start (first ++ rest) ↔
      program.HasAt start first ∧ program.HasAt (start + first.length) rest := by
  induction first generalizing start with
  | nil => simp [HasAt]
  | cons instruction first inductionHypothesis =>
    have shifted : start + 1 + first.length = start + (instruction :: first).length := by
      rw [List.length_cons]
      omega
    rw [List.cons_append, HasAt, inductionHypothesis, shifted, HasAt, and_assoc]

theorem hasAt_length_append (first rest : Program) :
    Program.HasAt (first ++ rest) first.length rest := by
  induction rest generalizing first with
  | nil => trivial
  | cons instruction rest inductionHypothesis =>
    refine ⟨by simp, ?_⟩
    have later := inductionHypothesis (first ++ [instruction])
    rwa [List.append_assoc, List.singleton_append, List.length_append] at later

theorem hasAt_bracketed
    (program : Program)
    (start : Nat)
    (opener closer : Instruction)
    (body rest : Program) :
    program.HasAt start (bracketed opener body closer rest) ↔
      program[start]? = some opener ∧ program.HasAt (start + 1) body ∧
      program[start + 1 + body.length]? = some closer ∧
      program.HasAt (start + 1 + body.length + 1) rest := by
  rw [bracketed, HasAt, hasAt_append, HasAt]

theorem length_bracketed
    (opener closer : Instruction)
    (body rest : Program) :
    (bracketed opener body closer rest).length = 1 + body.length + 1 + rest.length := by
  simp only [bracketed, List.length_cons, List.length_append]
  omega

theorem hasAt_zero_self (program : Program) : program.HasAt 0 program :=
  hasAt_length_append [] program

end Program

namespace Engine

/-- What comes out of a computation: the memory at its end and the failure, if
there was one. -/
structure Outcome where
  /-- The memory at the end. -/
  memory : Memory
  /-- The failure that ended the computation. -/
  failure : Option Failure
  deriving DecidableEq, Repr

namespace Outcome

/-- The outcome of a computation that has come through. -/
def finished (memory : Memory) : Outcome where
  memory := memory
  failure := none

/-- The outcome of an instruction that fails. -/
def failed
    (memory : Memory)
    (index : Nat)
    (instruction : Instruction)
    (fault : Fault) : Outcome where
  memory := memory
  failure := some { index := index, instruction := instruction, fault := fault }

end Outcome

/-- Compute, and go on with the memory unless there was a failure. -/
def andThen
    (first : Option Outcome)
    (next : Memory -> Option Outcome) : Option Outcome :=
  match first with
  | none => none
  | some outcome =>
    match outcome.failure with
    | none => next outcome.memory
    | some _ => some outcome

/-- Record whether a condition held. -/
def Memory.record (memory : Memory) (truth : Bool) : Memory :=
  { memory with outcomes := memory.outcomes.push truth }

/-- Structured code: an item and the code behind it.  Branches, alternatives and
loops carry the instructions that they begin and end with. -/
inductive Code where
  | done
  | plain (instruction : Instruction.Plain) (rest : Code)
  | branch
      (opener : Instruction.Of .ifOpen)
      (body : Code)
      (closer : Instruction.Of .endif)
      (rest : Code)
  | alternative
      (opener : Instruction.Of .elseOpen)
      (body : Code)
      (closer : Instruction.Of .endif)
      (rest : Code)
  | loop
      (opener : Instruction.Of .mark)
      (body : Code)
      (closer : Instruction.Of .jumpIf)
      (rest : Code)

namespace Code

/-- The program that structured code stands for. -/
def flatten : Code -> Program
  | done => []
  | plain instruction rest => instruction.val :: rest.flatten
  | branch opener body closer rest =>
    .bracketed opener.val body.flatten closer.val rest.flatten
  | alternative opener body closer rest =>
    .bracketed opener.val body.flatten closer.val rest.flatten
  | loop opener body closer rest =>
    .bracketed opener.val body.flatten closer.val rest.flatten

/-- The number of instructions. -/
def size (code : Code) : Nat :=
  code.flatten.length

theorem size_plain
    (instruction : Instruction.Plain)
    (rest : Code) :
    (plain instruction rest).size = 1 + rest.size :=
  Nat.add_comm _ _

/-- Branches, alternatives and loops have the size of what they hold and two
instructions more. -/
theorem size_bracketed
    (code : Code)
    {body rest : Code}
    {opener closer : Instruction}
    (shape : code.flatten = .bracketed opener body.flatten closer rest.flatten) :
    code.size = 1 + body.size + 1 + rest.size := by
  rw [size, shape, Program.length_bracketed]
  rfl

/-- Compute again and again while the top value is not zero, at most for a number
of rounds.  After every round there has to be a value to look at. -/
def repeated
    (closer : Instruction)
    (position : Nat)
    (body : Memory -> Option Outcome) : (rounds : Nat) -> Memory -> Option Outcome
  | 0, _ => none
  | rounds + 1, memory =>
    andThen (body memory) fun after =>
      match after.stack.peek? with
      | none => some (.failed after position closer .stackUnderflow)
      | some top =>
        if Arithmetic.truthy top then
          repeated closer position body rounds after
        else
          some (.finished after)

/-- Run structured code whose first instruction has the given index.  A branch
looks at the top value, runs its body if the value is not zero, and then records
whether it was.  An alternative takes back what was recorded last and runs its
body if that was false. -/
def interpret (sink : Sink) (rounds : Nat) : Code -> (start : Nat) -> Memory -> Option Outcome
  | done, _, memory => some (.finished memory)
  | plain instruction rest, start, memory =>
    match memory.perform sink instruction.val with
    | (after, none) => rest.interpret sink rounds (start + 1) after
    | (after, some fault) => some (.failed after start instruction.val fault)
  | branch opener body _ rest, start, memory =>
    match memory.stack.peek? with
    | none => some (.failed memory start opener.val .stackUnderflow)
    | some top =>
      let ran :=
        if Arithmetic.truthy top then
          body.interpret sink rounds (start + 1) memory
        else
          some (.finished memory)
      andThen ran fun after =>
        rest.interpret sink rounds (start + 1 + body.size + 1)
          (after.record (Arithmetic.truthy top))
  | alternative opener body _ rest, start, memory =>
    match memory.outcomes.pop? with
    | none => some (.failed memory start opener.val (.emptyControlStack .outcome))
    | some (taken, below) =>
      let remaining := { memory with outcomes := below }
      let ran :=
        if taken then
          some (.finished remaining)
        else
          body.interpret sink rounds (start + 1) remaining
      andThen ran fun after => rest.interpret sink rounds (start + 1 + body.size + 1) after
  | loop _ body closer rest, start, memory =>
    let ran :=
      repeated closer.val (start + 1 + body.size) (body.interpret sink rounds (start + 1))
        rounds memory
    andThen ran fun after => rest.interpret sink rounds (start + 1 + body.size + 1) after

end Code

end Engine
end GlyphStack
