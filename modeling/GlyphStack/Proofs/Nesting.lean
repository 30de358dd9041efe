import GlyphStack.Proofs.Blocks
import GlyphStack.Proofs.Runs

/-!
# Open blocks of programs that do not jump

A program that does not jump passes its instructions in order.  Its run then has
as many blocks open as the check of the blocks and the listing count in front of
the same instruction, whether blocks run or are skipped.  So the check foretells
where a run ends that does not fail: at the first endif that closes nothing, or
else at the end of the program, with the blocks open that are never closed.
-/

namespace GlyphStack

/-- A program that does not jump. -/
def Program.Jumpless (program : Program) : Prop :=
  ∀ instruction ∈ program, instruction.kind ≠ .jump ∧ instruction.kind ≠ .jumpIf

instance (program : Program) : Decidable program.Jumpless :=
  inferInstanceAs (Decidable (∀ instruction ∈ program, _))

namespace Engine

open Blocks

section Steps

variable {sink : Sink} {program : Program} {state after : State} {instruction : Instruction}

/-- A step passes an instruction: the run goes on behind it, with the blocks open
that the listing counts. -/
structure Passes (state : State) (instruction : Instruction) (after : State) : Prop where
  index_eq : after.index = state.index + 1
  depth_eq : after.frames.length = Listing.depthAfter state.frames.length instruction.kind
  inside : instruction.kind = .endif -> state.frames ≠ []

/-- A step ends the program: an endif is met outside all blocks. -/
structure Stops
    (program : Program)
    (state : State)
    (instruction : Instruction)
    (after : State) : Prop where
  isEndif : instruction.kind = .endif
  outside : state.frames = []
  index_eq : after.index = program.length
  frames_eq : after.frames = []

theorem passes_skip
    (closed : state.gate = false)
    (instruction : Instruction) :
    Passes state instruction (state.skip instruction) where
  index_eq := State.index_skip state instruction
  depth_eq := by
    unfold State.skip Listing.depthAfter
    cases instruction.kind <;> simp
  inside := by
    rintro - outside
    simp [State.gate, outside] at closed

/-- Instructions other than jumps pass, unless they fail or end the program. -/
theorem Performs.passes
    {failure : Option Failure}
    (performs : Performs sink program state instruction after failure)
    (notJump : instruction.kind ≠ .jump)
    (notJumpIf : instruction.kind ≠ .jumpIf)
    (unfailed : failure = none) :
    Passes state instruction after ∨ Stops program state instruction after := by
  cases performs with
  | plain isPlain performed =>
    refine .inl ⟨rfl, ?_, ?_⟩
    · cases kind : instruction.kind <;> simp_all [Kind.isPlain, Listing.depthAfter]
    · intro isEndif
      simp [isEndif, Kind.isPlain] at isPlain
  | ifOpen isIf peeked => exact .inl ⟨rfl, by simp [isIf, Listing.depthAfter], by simp [isIf]⟩
  | elseOpen isElse popped =>
    exact .inl ⟨rfl, by simp [isElse, Listing.depthAfter], by simp [isElse]⟩
  | close isEndif nested =>
    exact .inl ⟨by simp, by simp [isEndif, Listing.depthAfter], fun _ => nested⟩
  | stop isEndif outside => exact .inr ⟨isEndif, outside, rfl, outside⟩
  | mark isMark => exact .inl ⟨rfl, by simp [isMark, Listing.depthAfter], by simp [isMark]⟩
  | jump isJump => exact absurd isJump notJump
  | jumpIfTaken isJumpIf => exact absurd isJumpIf notJumpIf
  | jumpIfPassed isJumpIf => exact absurd isJumpIf notJumpIf
  | ifUnderflow => cases unfailed
  | elseMissing => cases unfailed
  | jumpMissing => cases unfailed
  | jumpIfMissing => cases unfailed
  | jumpIfUnderflow => cases unfailed

theorem Transition.passes
    (transition : Transition sink program state after none)
    (jumpless : program.Jumpless) :
    ∃ instruction, program[state.index]? = some instruction ∧
      (Passes state instruction after ∨ Stops program state instruction after) := by
  cases transition with
  | skip found closed => exact ⟨_, found, .inl (passes_skip closed _)⟩
  | perform found opened performs =>
    obtain ⟨notJump, notJumpIf⟩ := jumpless _ (List.mem_of_getElem? found)
    exact ⟨_, found, performs.passes notJump notJumpIf rfl⟩

/-- An endif does not fail. -/
theorem Performs.failed
    {outcome : Option Failure}
    {failure : Failure}
    (performs : Performs sink program state instruction after outcome)
    (failed : outcome = some failure) :
    failure.index = state.index ∧ instruction.kind ≠ .endif := by
  cases performs with
  | plain isPlain performed =>
    obtain ⟨fault, -, rfl⟩ := Option.map_eq_some_iff.mp failed
    refine ⟨rfl, ?_⟩
    intro isEndif
    simp [isEndif, Kind.isPlain] at isPlain
  | close isEndif nested => cases failed
  | stop isEndif outside => cases failed
  | _ => cases failed <;> exact ⟨rfl, by simp [*]⟩

end Steps

/-- A run that has passed the instructions in front of the next one, none of
which is stray, with as many blocks open as the check counts. -/
structure Aligned (program : Program) (state : State) : Prop where
  within : state.index ≤ program.length
  steps_eq : state.steps = state.index
  depth_eq : state.frames.length = (Scan.before program state.index).opened.length
  unstray : (Scan.before program state.index).stray = []

/-- A run that an endif outside all blocks has ended. -/
structure Stopped (program : Program) (state : State) : Prop where
  past : program[state.index]? = none
  first : ∃ first, program.firstStray? = some first ∧ state.steps = first + 1
  frames_eq : state.frames = []

section Runs

variable {sink : Sink} {program : Program} {width : Width} {state after : State}

theorem aligned_initial
    (program : Program)
    (width : Width) :
    Aligned program (.initial width) where
  within := Nat.zero_le _
  steps_eq := rfl
  depth_eq := rfl
  unstray := rfl

/-- As long as the run is aligned, the check is outside all blocks exactly if the
run is. -/
theorem Aligned.opened_eq_nil_iff (aligned : Aligned program state) :
    (Scan.before program state.index).opened = [] ↔ state.frames = [] := by
  rw [← List.length_eq_zero_iff, ← aligned.depth_eq, List.length_eq_zero_iff]

/-- A step keeps a run aligned, or ends it at the first stray endif. -/
theorem Aligned.transition
    (aligned : Aligned program state)
    (transition : Transition sink program state after none)
    (jumpless : program.Jumpless) :
    Aligned program after ∨ Stopped program after := by
  obtain ⟨instruction, found, passes | stops⟩ := transition.passes jumpless
  · left
    obtain ⟨inside, -⟩ := List.getElem?_eq_some_iff.mp found
    have next : Scan.before program after.index =
        (Scan.before program state.index).visit state.index instruction := by
      rw [passes.index_eq, Scan.before_succ found]
    refine ⟨?_, ?_, ?_, ?_⟩
    · rw [passes.index_eq]
      exact inside
    · rw [transition.steps_eq, aligned.steps_eq, passes.index_eq]
    · rw [next, Scan.length_opened_visit, passes.depth_eq, aligned.depth_eq]
    · rw [next, Scan.stray_visit, aligned.unstray]
      intro isEndif
      rw [Ne, aligned.opened_eq_nil_iff]
      exact passes.inside isEndif
  · right
    refine ⟨by simp [stops.index_eq], ⟨state.index, ?_, ?_⟩, stops.frames_eq⟩
    · exact Program.firstStray?_eq_some found aligned.unstray stops.isEndif
        (aligned.opened_eq_nil_iff.mpr stops.outside)
    · rw [transition.steps_eq, aligned.steps_eq]

/-- A failing step fails before the first stray endif. -/
theorem Aligned.failed
    {failure : Failure}
    {first : Nat}
    (aligned : Aligned program state)
    (transition : Transition sink program state after (some failure))
    (isFirst : program.firstStray? = some first) :
    failure.index < first := by
  generalize failed : some failure = outcome at transition
  cases transition with
  | skip found closed => cases failed
  | perform found opened performs =>
    obtain ⟨index_eq, notEndif⟩ := performs.failed failed.symm
    obtain ⟨inside, -⟩ := List.getElem?_eq_some_iff.mp found
    rw [index_eq]
    refine Program.le_firstStray? inside ?_ isFirst
    rw [Scan.before_succ found, Scan.stray_visit, aligned.unstray]
    exact fun isEndif => absurd isEndif notEndif

/-- Wherever a run comes that does not jump, it is aligned with the check or has
been ended by the first stray endif. -/
theorem Reaches.aligned
    (reached : Reaches sink program (.initial width) state none)
    (jumpless : program.Jumpless) :
    Aligned program state ∨ Stopped program state := by
  generalize unfailed : (none : Option Failure) = failure at reached
  induction reached with
  | refl => exact .inl (aligned_initial program width)
  | step reached stepped inductionHypothesis =>
    subst unfailed
    have transition := step?_eq_some_iff.mp stepped
    -- A run that has been ended makes no further step.
    rcases inductionHypothesis rfl with aligned | stopped
    · exact aligned.transition transition jumpless
    · simp [State.step?, stopped.past] at stepped

/-- A run that does not jump needs no more room than the program is long. -/
theorem jumpless_run_ends
    (sink : Sink)
    (jumpless : program.Jumpless)
    (limit : Nat)
    (state : State)
    (enough : program.length ≤ state.index + limit) :
    ∃ final failure, state.run sink program limit = (final, .ofFailure failure) := by
  induction limit, state using run_induction sink program with
  | finished limit state past => exact ⟨state, none, run_past past limit⟩
  | stopped state instruction found opened =>
    obtain ⟨inside, -⟩ := List.getElem?_eq_some_iff.mp found
    omega
  | passed limit state instruction after found opened performed inductionHypothesis =>
    rw [run_perform found opened, performed]
    apply inductionHypothesis
    have performs := performs_perform sink program state instruction
    rw [performed] at performs
    obtain ⟨notJump, notJumpIf⟩ := jumpless _ (List.mem_of_getElem? found)
    rcases performs.passes notJump notJumpIf rfl with passes | stops
    · rw [passes.index_eq]
      omega
    · rw [stops.index_eq]
      omega
  | failed limit state instruction after failure found opened performed =>
    rw [run_perform found opened, performed]
    exact ⟨after, some failure, rfl⟩
  | skipped limit state instruction found closed inductionHypothesis =>
    rw [run_skip found closed]
    apply inductionHypothesis
    rw [State.index_skip]
    omega

/-- A run that does not fail ends at the first stray endif, or passes the whole
program and leaves the blocks open that are never closed. -/
theorem Ends.finished_at
    {final : State}
    (ends : Ends sink program (.initial width) final none)
    (jumpless : program.Jumpless) :
    Stopped program final ∨
      program.firstStray? = none ∧ final.steps = program.length ∧
        final.frames.length = program.blockIssues.length := by
  rcases ends.reaches.aligned jumpless with aligned | stopped
  · right
    have past : program.length ≤ final.index := List.getElem?_eq_none_iff.mp ends.past
    have index_eq : final.index = program.length := Nat.le_antisymm aligned.within past
    have unstray := aligned.unstray
    have depth_eq := aligned.depth_eq
    rw [index_eq] at unstray depth_eq
    refine ⟨Program.firstStray?_eq_none unstray, by rw [aligned.steps_eq, index_eq], ?_⟩
    rw [Program.blockIssues, Scan.length_issues, ← Scan.before_length, unstray, depth_eq,
      List.length_nil, Nat.zero_add]
  · exact .inl stopped

/-- A run that fails does so before the first stray endif. -/
theorem Reaches.failed_before
    {failure : Failure}
    {first : Nat}
    (reached : Reaches sink program (.initial width) state (some failure))
    (jumpless : program.Jumpless)
    (isFirst : program.firstStray? = some first) :
    failure.index < first := by
  cases reached with
  | step reached stepped =>
    rcases reached.aligned jumpless with aligned | stopped
    · exact aligned.failed (step?_eq_some_iff.mp stepped) isFirst
    · simp [State.step?, stopped.past] at stepped

end Runs

/-- In front of every instruction that a run comes to, the blocks that it has
open are as many as the check of the blocks has open there, and as many as the
listing counts when it comes to that line.  So a run fails before the first stray
endif or ends right behind it with no block open.  Without a stray endif it fails
or passes the whole program, and its open blocks are as many as the issues that
the check reports. -/
theorem jumpless_run_follows_blocks
    (sink : Sink)
    (program : Program)
    (width : Width)
    (jumpless : program.Jumpless) :
    (∀ state instruction,
      Reaches sink program (.initial width) state none ->
      program[state.index]? = some instruction ->
      state.frames.length =
        (Scan.initial.visitAll 0 (program.take state.index)).opened.length ∧
      state.frames.length = Listing.depthBefore program state.index ∧
      Listing.lines 0 0 program =
        Listing.lines 0 0 (program.take state.index) ++
          Listing.lines state.index state.frames.length
            (instruction :: program.drop (state.index + 1))) ∧
    ∀ limit, program.length ≤ limit ->
      ∃ final ending, (State.initial width).run sink program limit = (final, ending) ∧
        (∀ first, program.firstStray? = some first ->
          (∃ failure, ending = .failed failure ∧ failure.index < first) ∨
            ending = .finished ∧ final.steps = first + 1 ∧ final.frames = []) ∧
        (program.firstStray? = none ->
          (∃ failure, ending = .failed failure) ∨
            ending = .finished ∧ final.steps = program.length ∧
              final.frames.length = program.blockIssues.length) := by
  refine ⟨?_, ?_⟩
  · intro state instruction reached found
    rcases reached.aligned jumpless with aligned | stopped
    · have depth_eq : state.frames.length = Listing.depthBefore program state.index := by
        rw [aligned.depth_eq, Scan.length_opened_before aligned.within]
      refine ⟨aligned.depth_eq, depth_eq, ?_⟩
      rw [depth_eq]
      exact Listing.lines_eq_at found
    · simp [stopped.past] at found
  · intro limit enough
    obtain ⟨final, outcome, run⟩ :=
      jumpless_run_ends sink jumpless limit (.initial width)
        (by simpa [State.initial] using enough)
    have ends := ends_of_run run
    refine ⟨final, .ofFailure outcome, run, ?_, ?_⟩
    · intro first isFirst
      cases outcome with
      | some failure =>
        exact .inl ⟨failure, rfl, ends.reaches.failed_before jumpless isFirst⟩
      | none =>
        rcases ends.finished_at jumpless with stopped | ⟨unstray, -⟩
        · obtain ⟨other, isOther, steps_eq⟩ := stopped.first
          obtain rfl : first = other := by simpa [isFirst] using isOther
          exact .inr ⟨rfl, steps_eq, stopped.frames_eq⟩
        · simp [unstray] at isFirst
    · intro unstray
      cases outcome with
      | some failure => exact .inl ⟨failure, rfl⟩
      | none =>
        rcases ends.finished_at jumpless with stopped | ⟨-, steps_eq, depth_eq⟩
        · obtain ⟨other, isOther, -⟩ := stopped.first
          simp [unstray] at isOther
        · exact .inr ⟨rfl, steps_eq, depth_eq⟩

/-- A program with a block inside a skipped one and an endif too many. -/
def strayEnd : Program :=
  [{ kind := .push, value := 0, position := .nowhere }, .plain .ifOpen .nowhere,
    .plain .ifOpen .nowhere, .plain .copy .nowhere, .plain .endif .nowhere,
    .plain .endif .nowhere, .plain .endif .nowhere, .plain .pop .nowhere]

/-- In the skipped block two blocks are open, and the run ends behind the seventh
instruction. -/
theorem jumpless_run_follows_blocks_strayEnd :
    strayEnd.Jumpless ∧ strayEnd.firstStray? = some 6 ∧
    (∃ state : State, Reaches .unlimited strayEnd (.initial .standard) state none ∧
      state.index = 4 ∧ state.gate = false ∧ state.frames.length = 2 ∧
      state.frames.length = Listing.depthBefore strayEnd 4) ∧
    ∃ final ending, (State.initial .standard).run .unlimited strayEnd 8 = (final, ending) ∧
      ((∃ failure, ending = .failed failure ∧ failure.index < 6) ∨
        ending = .finished ∧ final.steps = 7 ∧ final.frames = []) := by
  have jumpless : strayEnd.Jumpless := by decide
  have isFirst : strayEnd.firstStray? = some 6 := by decide
  have reached : Reaches .unlimited strayEnd (.initial .standard) _ none :=
    .step (.step (.step (.step .refl rfl) rfl) rfl) rfl
  obtain ⟨agree, ends⟩ := jumpless_run_follows_blocks .unlimited strayEnd .standard jumpless
  obtain ⟨final, ending, run, stray, -⟩ := ends 8 (by decide)
  exact ⟨jumpless, isFirst,
    ⟨_, reached, rfl, rfl, rfl, (agree _ (.plain .endif .nowhere) reached rfl).2.1⟩,
    final, ending, run, stray 6 isFirst⟩

end Engine
end GlyphStack
