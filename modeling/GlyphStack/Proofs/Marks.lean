import GlyphStack.Proofs.Runs

/-!
# Marks and jumps

A jump takes the latest mark and goes on at the instruction that set it.  Every
mark that a run holds is the index of such an instruction, so a jump always lands
on one, which sets the same mark again.  A jump and the mark that it lands on
together change nothing but the place of the run.

So a run keeps its marks.  Right behind a jump the mark is on its way back; apart
from that, a mark is given up only by a conditional jump that finds the top value
zero.
-/

namespace GlyphStack
namespace Engine

namespace State

/-- Whether the next instruction runs and is a jump that is taken if there is a
mark. -/
def Jumps (program : Program) (state : State) : Prop :=
  state.gate = true ∧ ∃ instruction, program[state.index]? = some instruction ∧
    (instruction.kind = .jump ∨
      instruction.kind = .jumpIf ∧ ∃ top, state.machine.stack.peek? = some top ∧ top ≠ 0)

/-- Whether the next instruction runs and is a conditional jump that finds the top
value zero. -/
def Releases (program : Program) (state : State) : Prop :=
  state.gate = true ∧ ∃ instruction, program[state.index]? = some instruction ∧
    instruction.kind = .jumpIf ∧ state.machine.stack.peek? = some 0

@[simp] theorem returns_skip
    (state : State)
    (instruction : Instruction) :
    (state.skip instruction).machine.returns = state.machine.returns := by
  unfold skip
  dsimp only
  split <;> simp

end State

/-- Whether every mark is the index of an instruction that sets marks. -/
def Marked (program : Program) (marks : Stack Nat) : Prop :=
  ∀ mark ∈ marks.toList, ∃ instruction, program[mark]? = some instruction ∧
    instruction.kind = .mark

namespace Marked

variable {program : Program} {marks : Stack Nat} {mark : Nat}

theorem push
    (marked : Marked program marks)
    {instruction : Instruction}
    (found : program[mark]? = some instruction)
    (isMark : instruction.kind = .mark) :
    Marked program (marks.push mark) := by
  intro other listed
  rw [Stack.toList_push, List.mem_append, List.mem_singleton] at listed
  rcases listed with older | rfl
  · exact marked other older
  · exact ⟨instruction, found, isMark⟩

theorem of_push (marked : Marked program (marks.push mark)) :
    Marked program marks := by
  intro other listed
  apply marked other
  rw [Stack.toList_push]
  exact List.mem_append_left _ listed

theorem top (marked : Marked program (marks.push mark)) :
    ∃ instruction, program[mark]? = some instruction ∧ instruction.kind = .mark := by
  apply marked mark
  simp

end Marked

/-- All that a step can do to the marks. -/
inductive Remarks
    (program : Program)
    (state after : State) : Option Failure -> Prop
  /-- Most steps leave the marks alone. -/
  | kept {failure : Option Failure}
      (same : after.machine.returns = state.machine.returns) :
      Remarks program state after failure
  | set {instruction : Instruction}
      (found : program[state.index]? = some instruction)
      (isMark : instruction.kind = .mark)
      (pushed : after.machine.returns = state.machine.returns.push state.index) :
      Remarks program state after none
  /-- A jump that is taken removes the latest mark. -/
  | jumped {mark : Nat}
      (jumps : state.Jumps program)
      (held : state.machine.returns = after.machine.returns.push mark) :
      Remarks program state after none
  /-- A jump that is not taken removes it all the same. -/
  | released {mark : Nat}
      (releases : state.Releases program)
      (held : state.machine.returns = after.machine.returns.push mark) :
      Remarks program state after none
  /-- So does one that fails for want of a value. -/
  | lost {mark : Nat} {failure : Failure}
      (held : state.machine.returns = after.machine.returns.push mark) :
      Remarks program state after (some failure)

section Steps

variable {sink : Sink} {program : Program} {state after : State} {failure : Option Failure}

theorem Transition.remarks
    (transition : Transition sink program state after failure) :
    Remarks program state after failure := by
  cases transition with
  | skip found closed => exact .kept (State.returns_skip state _)
  | perform found opened performs =>
    cases performs with
    | mark isMark => exact .set found isMark rfl
    | jump isJump popped =>
      exact .jumped ⟨opened, _, found, .inl isJump⟩ (Stack.eq_push_of_pop?_eq_some popped)
    | jumpIfTaken isJumpIf popped peeked truthy =>
      have nonzero := by simpa [Arithmetic.truthy] using truthy
      exact .jumped ⟨opened, _, found, .inr ⟨isJumpIf, _, peeked, nonzero⟩⟩
        (Stack.eq_push_of_pop?_eq_some popped)
    | @jumpIfPassed mark below top isJumpIf popped peeked falsy =>
      obtain rfl : top = 0 := by simpa [Arithmetic.truthy] using falsy
      exact .released ⟨opened, _, found, isJumpIf, peeked⟩
        (Stack.eq_push_of_pop?_eq_some popped)
    | jumpIfUnderflow isJumpIf popped empty =>
      exact .lost (Stack.eq_push_of_pop?_eq_some popped)
    | close isEndif nested => exact .kept (by simp)
    | _ => exact .kept rfl

theorem Transition.marked
    (transition : Transition sink program state after failure)
    (marked : Marked program state.machine.returns) :
    Marked program after.machine.returns := by
  cases transition.remarks with
  | kept same => exact same ▸ marked
  | set found isMark pushed => exact pushed ▸ marked.push found isMark
  | jumped _ held | released _ held | lost held =>
    rw [held] at marked
    exact marked.of_push

theorem Reaches.marked
    {start : State}
    (reached : Reaches sink program start state failure)
    (marked : Marked program start.machine.returns) :
    Marked program state.machine.returns :=
  reached.invariant marked fun _ _ _ marked transition => transition.marked marked

/-- With the gate open a step runs the next instruction. -/
theorem Transition.performs
    (transition : Transition sink program state after failure)
    (opened : state.gate = true)
    {instruction : Instruction}
    (found : program[state.index]? = some instruction) :
    Performs sink program state instruction after failure := by
  cases transition with
  | skip other closed => simp [opened] at closed
  | @perform other _ _ other_found _ performs =>
    obtain rfl : instruction = other := by simpa [found] using other_found
    exact performs

/-- A jump that succeeds goes to the latest mark and removes it. -/
theorem Transition.jumped
    (transition : Transition sink program state after none)
    (jumps : state.Jumps program) :
    ∃ mark below, state.machine.returns = below.push mark ∧
      after = (state.advance.withReturns below).withIndex mark := by
  obtain ⟨opened, instruction, found, isJump | ⟨isJumpIf, top, peeked, nonzero⟩⟩ := jumps
  · have performed := (transition.performs opened found).perform_eq
    rw [State.perform_jump sink program state isJump] at performed
    cases popped : state.machine.returns.pop? with
    | none => simp [popped] at performed
    | some result =>
      simp only [popped, Prod.mk.injEq, and_true] at performed
      exact ⟨_, _, Stack.eq_push_of_pop?_eq_some popped, performed.symm⟩
  · have performed := (transition.performs opened found).perform_eq
    rw [State.perform_jumpIf sink program state isJumpIf] at performed
    cases popped : state.machine.returns.pop? with
    | none => simp [popped] at performed
    | some result =>
      have truthy : Arithmetic.truthy top = true := by simpa [Arithmetic.truthy] using nonzero
      simp only [popped, peeked, truthy, if_true, Prod.mk.injEq, and_true] at performed
      exact ⟨_, _, Stack.eq_push_of_pop?_eq_some popped, performed.symm⟩

/-- A conditional jump that finds zero goes on behind it without its mark. -/
theorem Transition.released
    (transition : Transition sink program state after none)
    (releases : state.Releases program) :
    ∃ mark below, state.machine.returns = below.push mark ∧
      after = state.advance.withReturns below := by
  obtain ⟨opened, instruction, found, isJumpIf, peeked⟩ := releases
  have performed := (transition.performs opened found).perform_eq
  rw [State.perform_jumpIf sink program state isJumpIf] at performed
  cases popped : state.machine.returns.pop? with
  | none => simp [popped] at performed
  | some result =>
    have falsy : Arithmetic.truthy 0 = false := by decide
    simp only [popped, peeked, falsy, Bool.false_eq_true, if_false, Prod.mk.injEq, and_true]
      at performed
    exact ⟨_, _, Stack.eq_push_of_pop?_eq_some popped, performed.symm⟩

/-- The step behind a jump sets the mark again that the jump removed. -/
theorem Transition.rearms
    (transition : Transition sink program state after none)
    (jumps : state.Jumps program)
    (marked : Marked program state.machine.returns) :
    ∃ (mark : Nat) (below : Stack Nat) (instruction : Instruction),
      state.machine.returns = below.push mark ∧ after.index = mark ∧
      program[mark]? = some instruction ∧ instruction.kind = .mark ∧ after.gate = true ∧
      Transition sink program after
        { state with index := mark + 1, steps := state.steps + 2 } none := by
  obtain ⟨mark, below, held, rfl⟩ := transition.jumped jumps
  have top : Marked program (below.push mark) := held ▸ marked
  obtain ⟨instruction, found, isMark⟩ := top.top
  have opened : ((state.advance.withReturns below).withIndex mark).gate = true := jumps.1
  refine ⟨mark, below, instruction, held, rfl, found, isMark, opened, ?_⟩
  have restored : ((state.advance.withReturns below).withIndex mark).advance.withReturns
      (below.push mark) = { state with index := mark + 1, steps := state.steps + 2 } := by
    rw [← held]
    rfl
  rw [← restored]
  exact .perform found opened (.mark isMark)

end Steps

/-- What has become of the marks of a state at a later one. -/
inductive MarksLater
    (sink : Sink)
    (program : Program)
    (state later : State) : Prop
  /-- They are all there, below those set since. -/
  | held
      (kept : state.machine.returns.toList <+: later.machine.returns.toList)
  /-- They were all there until a jump was taken, right before. -/
  | landing {before : State}
      (reached : Reaches sink program state before none)
      (kept : state.machine.returns.toList <+: before.machine.returns.toList)
      (jumps : before.Jumps program)
      (stepped : before.step? sink program = some (later, none))
  /-- A conditional jump in between has found the top value zero. -/
  | released {before after : State}
      (reached : Reaches sink program state before none)
      (releases : before.Releases program)
      (stepped : before.step? sink program = some (after, none))
      (onward : Reaches sink program after later none)

section Runs

variable {sink : Sink} {program : Program} {state : State}

/-- Wherever a run goes on to, its marks have met one of the three fates. -/
theorem Reaches.marksLater
    {later : State}
    (reached : Reaches sink program state later none)
    (marked : Marked program state.machine.returns) :
    MarksLater sink program state later := by
  generalize unfailed : (none : Option Failure) = failure at reached
  induction reached with
  | refl => exact .held (List.prefix_refl _)
  | @step before after failure reached stepped inductionHypothesis =>
    subst unfailed
    have transition := step?_eq_some_iff.mp stepped
    cases inductionHypothesis rfl with
    | held kept =>
      cases transition.remarks with
      | kept same => exact .held (same ▸ kept)
      | set found isMark pushed =>
        apply MarksLater.held
        rw [pushed, Stack.toList_push]
        exact kept.trans (List.prefix_append _ _)
      | jumped jumps => exact .landing reached kept jumps stepped
      | released releases => exact .released reached releases stepped .refl
    | @landing jumper earlier kept jumps jumped =>
      -- The step made now is the one that sets the mark again.
      obtain ⟨mark, -, -, -, -, -, -, -, rearms⟩ :=
        (step?_eq_some_iff.mp jumped).rearms jumps (earlier.marked marked)
      rw [← step?_eq_some_iff, stepped] at rearms
      cases rearms
      exact .held kept
    | released earlier releases released onward =>
      exact .released earlier releases released (onward.step stepped)

end Runs

/-- Wherever a run comes, every mark that it holds is the index of an instruction
that sets marks.  So a jump that is taken lands on such an instruction, the gate is
still open, and the next step sets the mark again: after both the state is what it
was, apart from its place and the number of steps.  Hence jumps lose no mark.  As
long as the run does not fail, the marks that it holds stay there, but for the moment
between a jump and its landing, until a conditional jump finds the top value zero;
that one does give up the latest mark. -/
theorem reachable_jumps_rearm_their_marks
    (sink : Sink)
    (program : Program)
    (width : Width)
    {state : State}
    {failure : Option Failure}
    (reached : Reaches sink program (.initial width) state failure) :
    (∀ mark ∈ state.machine.returns.toList, mark < program.length ∧
      ∃ instruction, program[mark]? = some instruction ∧ instruction.kind = .mark) ∧
    (∀ after, state.Jumps program -> state.step? sink program = some (after, none) ->
      ∃ (mark : Nat) (below : Stack Nat) (instruction : Instruction),
        state.machine.returns = below.push mark ∧ after.index = mark ∧
        program[mark]? = some instruction ∧ instruction.kind = .mark ∧ after.gate = true ∧
        after.step? sink program =
          some ({ state with index := mark + 1, steps := state.steps + 2 }, none)) ∧
    (∀ after, state.Releases program -> state.step? sink program = some (after, none) ->
      ∃ (mark : Nat) (below : Stack Nat), state.machine.returns = below.push mark ∧
        after = state.advance.withReturns below) ∧
    ∀ later, Reaches sink program state later none -> MarksLater sink program state later := by
  have marked : Marked program state.machine.returns :=
    reached.marked fun mark listed => absurd listed List.not_mem_nil
  refine ⟨?_, ?_, ?_, ?_⟩
  · intro mark listed
    obtain ⟨instruction, found, isMark⟩ := marked mark listed
    exact ⟨(List.getElem?_eq_some_iff.mp found).1, instruction, found, isMark⟩
  · intro after jumps stepped
    obtain ⟨mark, below, instruction, held, index_eq, found, isMark, opened, rearms⟩ :=
      (step?_eq_some_iff.mp stepped).rearms jumps marked
    exact ⟨mark, below, instruction, held, index_eq, found, isMark, opened,
      step?_eq_some_iff.mpr rearms⟩
  · intro after releases stepped
    exact (step?_eq_some_iff.mp stepped).released releases
  · intro later onward
    exact onward.marksLater marked

/-- A loop whose body is run twice. -/
def twice : Program :=
  [{ kind := .push, value := 2, position := .nowhere }, .plain .mark .nowhere,
    { kind := .push, value := 1, position := .nowhere }, .plain .subtract .nowhere,
    .plain .jumpIf .nowhere]

/-- At the end of its first round the loop goes back to its mark and sets it again. -/
theorem reachable_jumps_rearm_their_marks_twice :
    ∃ state after : State,
      Reaches .unlimited twice (.initial .standard) state none ∧
      state.machine.returns.toList = [1] ∧
      state.Jumps twice ∧
      state.step? .unlimited twice = some (after, none) ∧
      after.machine.returns.toList = [] ∧
      after.step? .unlimited twice =
        some ({ state with index := 2, steps := state.steps + 2 }, none) := by
  have reached : Reaches .unlimited twice (.initial .standard) _ none :=
    .step (.step (.step (.step .refl rfl) rfl) rfl) rfl
  have fates := (reachable_jumps_rearm_their_marks _ _ _ reached).2.1
  refine ⟨_, _, reached, rfl, ⟨rfl, _, rfl, .inr ⟨rfl, 1, rfl, by decide⟩⟩, rfl, rfl, ?_⟩
  obtain ⟨mark, below, instruction, -, index_eq, -, -, -, rearms⟩ :=
    fates _ ⟨rfl, _, rfl, .inr ⟨rfl, 1, rfl, by decide⟩⟩ rfl
  cases index_eq
  exact rearms

end Engine
end GlyphStack
