import GlyphStack.Proofs.Runs

/-!
# The gate and the open blocks

Whether an instruction runs is decided by the innermost open block alone.  This
is right because of the way blocks are nested.  Seen from the outermost block
inward, all blocks run up to the first whose condition is false, and all blocks
inside of that one were opened while instructions were skipped.

Jumps leave blocks without closing them.  A jump only happens while all open
blocks run, so a block that is left open by a jump never keeps a later
instruction from running.
-/

namespace GlyphStack
namespace Engine

/-- Blocks, innermost first, each of which was opened by an instruction that ran
exactly if all blocks around it run.  A block that was not, does not run. -/
def Nested : List Frame -> Prop
  | [] => True
  | frame :: outer =>
    Nested outer ∧ frame.live = outer.all Frame.condition ∧
      (frame.condition = true -> frame.live = true)

namespace Nested

variable {frame : Frame} {frames outer : List Frame}

theorem tail (nested : Nested frames) : Nested frames.tail := by
  cases frames with
  | nil => exact nested
  | cons frame outer => exact nested.1

/-- The innermost block runs exactly if all open blocks run. -/
theorem gate_eq_all
    {state : State}
    (nested : Nested state.frames) :
    state.gate = state.frames.all Frame.condition := by
  unfold State.gate
  cases frames : state.frames with
  | nil => rfl
  | cons frame outer =>
    rw [frames] at nested
    obtain ⟨-, live, runs⟩ := nested
    cases condition : frame.condition with
    | false => simp [condition]
    | true =>
      rw [runs condition] at live
      simp [condition, ← live]

/-- From the outermost block inward: blocks that run, then at most one whose
condition is false, then blocks opened by skipped instructions. -/
theorem layers (nested : Nested frames) :
    ∃ running rest, frames.reverse = running ++ rest ∧
      (∀ frame ∈ running, frame.live = true ∧ frame.condition = true) ∧
      (rest = [] ∨ ∃ closed dead, rest = closed :: dead ∧
        closed.live = true ∧ closed.condition = false ∧
        ∀ frame ∈ dead, frame.live = false ∧ frame.condition = false) := by
  induction frames with
  | nil => exact ⟨[], [], rfl, by simp, .inl rfl⟩
  | cons frame outer inductionHypothesis =>
    obtain ⟨outerNested, live, runs⟩ := nested
    obtain ⟨running, rest, split, allRun, shape⟩ := inductionHypothesis outerNested
    have outer_eq : outer.all Frame.condition = (running ++ rest).all Frame.condition := by
      rw [← split, List.all_reverse]
    rcases shape with rfl | ⟨closed, dead, rfl, closedLive, closedFalse, allDead⟩
    · -- All blocks around this one run, so it was opened by an instruction that ran.
      have isLive : frame.live = true := by
        rw [live, outer_eq]
        simpa using fun frame present => (allRun frame present).2
      cases condition : frame.condition with
      | true =>
        refine ⟨running ++ [frame], [], by simp [split], ?_, .inl rfl⟩
        intro other present
        rcases List.mem_append.mp present with older | same
        · exact allRun other older
        · obtain rfl := List.mem_singleton.mp same
          exact ⟨isLive, condition⟩
      | false =>
        exact ⟨running, [frame], by simp [split], allRun,
          .inr ⟨frame, [], rfl, isLive, condition, by simp⟩⟩
    · -- A block around this one does not run, so this one is dead.
      have isDead : frame.live = false := by
        rw [live, outer_eq]
        simp [closedFalse]
      have isFalse : frame.condition = false := by
        cases condition : frame.condition with
        | false => rfl
        | true => simp [runs condition] at isDead
      refine ⟨running, closed :: (dead ++ [frame]), by simp [split], allRun,
        .inr ⟨closed, dead ++ [frame], rfl, closedLive, closedFalse, ?_⟩⟩
      intro other present
      rcases List.mem_append.mp present with older | same
      · exact allDead other older
      · obtain rfl := List.mem_singleton.mp same
        exact ⟨isDead, isFalse⟩

/-- An instruction that runs may open a block. -/
theorem open_live
    {state : State}
    (nested : Nested state.frames)
    (opened : state.gate = true)
    (opener : Opener)
    (condition : Bool) :
    Nested ({ opener := opener, condition := condition, live := true } :: state.frames) :=
  ⟨nested, by rw [← nested.gate_eq_all, opened], fun _ => rfl⟩

/-- So may an instruction that is skipped. -/
theorem open_dead
    {state : State}
    (nested : Nested state.frames)
    (closed : state.gate = false)
    (opener : Opener) :
    Nested ({ opener := opener, condition := false, live := false } :: state.frames) :=
  ⟨nested, by rw [← nested.gate_eq_all, closed], fun runs => by simp at runs⟩

end Nested

section Steps

variable {sink : Sink} {program : Program} {state after : State} {failure : Option Failure}

/-- Only the instructions that open and close blocks change the open blocks. -/
theorem Performs.frames_eq
    {instruction : Instruction}
    (performs : Performs sink program state instruction after failure)
    (notIf : instruction.kind ≠ .ifOpen)
    (notElse : instruction.kind ≠ .elseOpen)
    (notEndif : instruction.kind ≠ .endif) :
    after.frames = state.frames := by
  cases performs with
  | ifOpen isIf => exact absurd isIf notIf
  | elseOpen isElse => exact absurd isElse notElse
  | close isEndif => exact absurd isEndif notEndif
  | _ => simp

theorem nested_skip
    (nested : Nested state.frames)
    (closed : state.gate = false)
    (instruction : Instruction) :
    Nested (state.skip instruction).frames := by
  unfold State.skip
  dsimp only
  split
  · exact nested.open_dead closed .ifBlock
  · exact nested.open_dead closed .elseBlock
  · rw [State.frames_closeBlock]
    exact nested.tail
  · exact nested

/-- Every step keeps the blocks nested. -/
theorem Transition.nested
    (transition : Transition sink program state after failure)
    (nested : Nested state.frames) :
    Nested after.frames := by
  cases transition with
  | skip found closed => exact nested_skip nested closed _
  | perform found opened performs =>
    cases performs with
    | ifOpen isIf peeked => exact nested.open_live opened .ifBlock _
    | elseOpen isElse popped => exact nested.open_live opened .elseBlock _
    | close isEndif inside =>
      rw [State.frames_closeBlock]
      exact nested.tail
    | _ => exact nested

theorem Reaches.nested
    {start : State}
    (reached : Reaches sink program start state failure)
    (nested : Nested start.frames) :
    Nested state.frames :=
  reached.invariant nested fun _ _ _ nested transition => transition.nested nested

end Steps

/-- Wherever a run comes, its open blocks are layered: seen from the outermost
inward, blocks that run, then at most one live block whose condition is false,
then dead blocks.  The gate, which looks at the innermost block only, is open
exactly if all open blocks run.  And the blocks that a jump leaves open do not
count from then on: of the blocks open at some later time, only those opened
since can keep an instruction from running. -/
theorem reachable_gate_sound
    (sink : Sink)
    (program : Program)
    (width : Width)
    {state : State}
    {failure : Option Failure}
    (reached : Reaches sink program (.initial width) state failure) :
    (∃ running rest, state.frames.reverse = running ++ rest ∧
      (∀ frame ∈ running, frame.live = true ∧ frame.condition = true) ∧
      (rest = [] ∨ ∃ closed dead, rest = closed :: dead ∧
        closed.live = true ∧ closed.condition = false ∧
        ∀ frame ∈ dead, frame.live = false ∧ frame.condition = false)) ∧
    state.gate = state.frames.all Frame.condition ∧
    (∀ instruction after, failure = none ->
      program[state.index]? = some instruction ->
      instruction.kind = .jump ∨ instruction.kind = .jumpIf ->
      state.gate = true ->
      state.step? sink program = some (after, none) ->
      after.frames = state.frames ∧
      (∀ frame ∈ after.frames, frame.condition = true) ∧
      ∀ later laterFailure newer left,
        Reaches sink program after later laterFailure ->
        later.frames = newer ++ left ->
        left <:+ after.frames ->
        later.gate = newer.all Frame.condition) := by
  have nested : Nested state.frames := reached.nested trivial
  refine ⟨nested.layers, nested.gate_eq_all, ?_⟩
  intro instruction after unfailed found jumps opened stepped
  cases step?_eq_some_iff.mp stepped with
  | skip other closed => simp [opened] at closed
  | @perform other _ _ other_found _ performs =>
    obtain rfl : instruction = other := by simpa [found] using other_found
    have same : after.frames = state.frames := by
      apply performs.frames_eq <;> rcases jumps with isJump | isJumpIf <;> simp [*]
    have allRun : ∀ frame ∈ after.frames, frame.condition = true := by
      rw [same]
      simpa [nested.gate_eq_all] using opened
    refine ⟨same, allRun, ?_⟩
    intro later laterFailure newer left laterReached split kept
    have laterNested : Nested later.frames := laterReached.nested (same ▸ nested)
    have leftRuns : left.all Frame.condition = true := by
      simpa using fun frame present => allRun frame (kept.subset present)
    rw [laterNested.gate_eq_all, split, List.all_append, leftRuns, Bool.and_true]

/-- A program that jumps out of a block back to its opener, which then finds the
condition false. -/
def jumpBack : Program :=
  [{ kind := .push, value := 1, position := .nowhere }, .plain .mark .nowhere,
    .plain .ifOpen .nowhere, .plain .not .nowhere, .plain .jump .nowhere]

/-- The block that is left open runs, and the gate is closed by the new block
alone. -/
theorem reachable_gate_sound_jumpBack :
    ∃ state after later : State,
      Reaches .unlimited jumpBack (.initial .standard) state none ∧
      state.step? .unlimited jumpBack = some (after, none) ∧
      Reaches .unlimited jumpBack after later none ∧
      after.frames = [{ opener := .ifBlock, condition := true, live := true }] ∧
      later.frames = { opener := .ifBlock, condition := false, live := true } :: after.frames ∧
      later.gate = List.all [{ opener := .ifBlock, condition := false, live := true }]
        Frame.condition := by
  have reached : Reaches .unlimited jumpBack (.initial .standard) _ none :=
    .step (.step (.step (.step .refl rfl) rfl) rfl) rfl
  have jumped := (reachable_gate_sound _ _ _ reached).2.2 (.plain .jump .nowhere) _ rfl rfl
    (.inl rfl) rfl rfl
  have unblocked := jumped.2.2 _ none [{ opener := .ifBlock, condition := false, live := true }] _
    (.step (.step .refl rfl) rfl) rfl (List.suffix_refl _)
  exact ⟨_, _, _, reached, rfl, .step (.step .refl rfl) rfl, rfl, rfl, unblocked⟩

end Engine
end GlyphStack
