import GlyphStack.Proofs.Marks

/-!
# Skipped blocks

While the condition of the innermost block is false, instructions are passed
without being run.  Blocks that are opened meanwhile are dead, and closing them
leaves nothing behind, so that passing an instruction never touches the machine
or the output, whatever the instruction is.

The block ends at the endif that belongs to it.  Which one this is can be read off
the program alone: between the place of the run and that endif, as many blocks are
closed as are opened, and at no place in between more.
-/

namespace GlyphStack

namespace Program

/-- The number of instructions that open blocks. -/
def openers (program : Program) : Nat :=
  program.countP fun instruction =>
    instruction.kind == .ifOpen || instruction.kind == .elseOpen

/-- The number of instructions that close blocks. -/
def closers (program : Program) : Nat :=
  program.countP fun instruction => instruction.kind == .endif

/-- The instructions from one index up to another, which is not included. -/
def between (program : Program) (first last : Nat) : Program :=
  (program.take last).drop first

/-- Whether from one index up to another there is no place up to which more blocks
are closed than opened. -/
def Unclosed (program : Program) (first last : Nat) : Prop :=
  ∀ middle ≤ last, first ≤ middle ->
    (program.between first middle).closers ≤ (program.between first middle).openers

instance (program : Program) (first last : Nat) : Decidable (program.Unclosed first last) :=
  inferInstanceAs (Decidable (∀ middle ≤ last, first ≤ middle -> _ ≤ _))

/-- Whether the block that is the innermost one at an index is closed by the
instruction at another. -/
structure ClosesAt (program : Program) (first last : Nat) : Prop where
  forward : first ≤ last
  endif : ∃ instruction, program[last]? = some instruction ∧ instruction.kind = .endif
  balanced : (program.between first last).closers = (program.between first last).openers
  unclosed : program.Unclosed first last

variable {program : Program} {first last : Nat} {instruction : Instruction}

@[simp] theorem openers_append (front back : Program) :
    openers (front ++ back) = front.openers + back.openers :=
  List.countP_append

@[simp] theorem closers_append (front back : Program) :
    closers (front ++ back) = front.closers + back.closers :=
  List.countP_append

@[simp] theorem openers_singleton (instruction : Instruction) :
    openers [instruction] =
      if instruction.kind = .ifOpen ∨ instruction.kind = .elseOpen then 1 else 0 := by
  simp [openers, List.countP_singleton]

@[simp] theorem closers_singleton (instruction : Instruction) :
    closers [instruction] = if instruction.kind = .endif then 1 else 0 := by
  simp [closers, List.countP_singleton]

theorem between_self (program : Program) (index : Nat) :
    program.between index index = [] :=
  List.drop_eq_nil_of_le (List.length_take_le index program)

theorem between_succ
    (found : program[last]? = some instruction)
    (forward : first ≤ last) :
    program.between first (last + 1) = program.between first last ++ [instruction] := by
  obtain ⟨inside, -⟩ := List.getElem?_eq_some_iff.mp found
  have reaching : first ≤ (program.take last).length := by
    rw [List.length_take]
    omega
  rw [between, List.take_add_one, found, Option.toList_some,
    List.drop_append_of_le_length reaching]
  rfl

theorem Unclosed.mono
    {middle : Nat}
    (unclosed : program.Unclosed first last)
    (within : middle ≤ last) :
    program.Unclosed first middle :=
  fun place before => unclosed place (Nat.le_trans before within)

theorem unclosed_self (program : Program) (index : Nat) :
    program.Unclosed index index := by
  intro middle before after
  obtain rfl : middle = index := Nat.le_antisymm before after
  rw [between_self]
  exact Nat.le_refl _

/-- If no instruction closes the block, it is still open at the end of the
program. -/
theorem unclosed_of_forall_not_closesAt
    (never : ∀ last, ¬ program.ClosesAt first last)
    (count : Nat)
    (within : first + count ≤ program.length) :
    program.Unclosed first (first + count) := by
  induction count with
  | zero => exact unclosed_self program first
  | succ count inductionHypothesis =>
    have unclosed := inductionHypothesis (by omega)
    have found : program[first + count]? = some program[first + count] :=
      List.getElem?_eq_getElem (by omega)
    intro middle before after
    rcases Nat.lt_or_eq_of_le before with earlier | rfl
    · exact unclosed middle (by omega) after
    · -- One endif more would close the block, if as many were closed as opened.
      have fewer := unclosed (first + count) (Nat.le_refl _) (by omega)
      rw [← Nat.add_assoc, between_succ found (by omega), closers_append, openers_append]
      by_cases isEndif : program[first + count].kind = .endif
      · have unbalanced : (program.between first (first + count)).closers ≠
            (program.between first (first + count)).openers :=
          fun balanced => never _ ⟨by omega, ⟨_, found, isEndif⟩, balanced, unclosed⟩
        rw [closers_singleton, if_pos isEndif]
        omega
      · rw [closers_singleton, if_neg isEndif]
        omega

end Program

namespace Engine

/-- Whether a block was opened by an instruction that was skipped. -/
def Frame.Dead (frame : Frame) : Prop :=
  frame.live = false ∧ frame.condition = false

namespace State

/-- The state after a number of steps, if none of them fails. -/
def walk? (sink : Sink) (program : Program) (state : State) : Nat -> Option State
  | 0 => some state
  | count + 1 => do
    let before <- state.walk? sink program count
    let (after, failure) <- before.step? sink program
    if failure.isNone then some after else none

/-- Pass a number of instructions, with blocks opened on the way. -/
def passing (state : State) (count : Nat) (inner : List Frame) : State :=
  { state with
    index := state.index + count
    steps := state.steps + count
    frames := inner ++ state.frames }

variable {sink : Sink} {program : Program} {state : State} {inner : List Frame}

theorem index_passing (count : Nat) :
    (state.passing count inner).index = state.index + count := rfl

theorem walk?_succ
    {before after : State}
    {count : Nat}
    (walked : state.walk? sink program count = some before)
    (transition : Transition sink program before after none) :
    state.walk? sink program (count + 1) = some after := by
  have stepped := step?_eq_some_iff.mpr transition
  simp [walk?, walked, stepped]

theorem gate_passing
    (closed : state.gate = false)
    (dead : ∀ frame ∈ inner, frame.Dead)
    (count : Nat) :
    (state.passing count inner).gate = false := by
  cases inner with
  | nil => exact closed
  | cons frame outer => exact (dead frame List.mem_cons_self).2

/-- Inside a skipped block an instruction is passed without effect.  The dead blocks
that are open then are those that were open before, one more behind an opener and one
less behind an endif. -/
theorem skip_passing
    (state : State)
    (count : Nat)
    (dead : ∀ frame ∈ inner, frame.Dead)
    (instruction : Instruction)
    (inside : instruction.kind = .endif -> inner ≠ []) :
    ∃ inner', (state.passing count inner).skip instruction = state.passing (count + 1) inner' ∧
      (∀ frame ∈ inner', frame.Dead) ∧
      inner'.length + Program.closers [instruction] =
        inner.length + Program.openers [instruction] := by
  have opened : ∀ opener : Opener,
      ∀ frame ∈ { opener := opener, condition := false, live := false } :: inner,
        frame.Dead := by
    intro opener frame member
    rcases List.mem_cons.mp member with rfl | older
    · exact ⟨rfl, rfl⟩
    · exact dead frame older
  cases kind : instruction.kind with
  | ifOpen =>
    exact ⟨_, by rw [skip, kind]; rfl, opened .ifBlock,
      by simp [kind]⟩
  | elseOpen =>
    exact ⟨_, by rw [skip, kind]; rfl, opened .elseBlock,
      by simp [kind]⟩
  | endif =>
    obtain ⟨frame, outer, rfl⟩ := List.exists_cons_of_ne_nil (inside kind)
    have unrecorded : ¬ (frame.opener = .ifBlock ∧ frame.live = true) := by
      simp [(dead frame List.mem_cons_self).1]
    refine ⟨outer, ?_, fun other member => dead other (List.mem_cons_of_mem _ member),
      by simp [kind]⟩
    simp [skip, kind, closeBlock, passing, advance, unrecorded, Nat.add_assoc]
  | _ =>
    exact ⟨inner, by rw [skip, kind]; rfl, dead,
      by simp [kind]⟩

/-- As long as a skipped block is not closed, a run passes its instructions without
effect.  This costs nothing of the limit of the run. -/
theorem exists_passing
    (sink : Sink)
    (closed : state.gate = false)
    (count : Nat)
    (within : state.index + count ≤ program.length)
    (unclosed : program.Unclosed state.index (state.index + count)) :
    ∃ inner, (∀ frame ∈ inner, frame.Dead) ∧
      inner.length + (program.between state.index (state.index + count)).closers =
        (program.between state.index (state.index + count)).openers ∧
      state.walk? sink program count = some (state.passing count inner) ∧
      ∀ limit, state.run sink program limit =
        (state.passing count inner).run sink program limit := by
  induction count with
  | zero =>
    refine ⟨[], by simp, ?_, rfl, fun _ => rfl⟩
    rw [Nat.add_zero, Program.between_self]
    rfl
  | succ count inductionHypothesis =>
    obtain ⟨inner, dead, depth, walked, ran⟩ :=
      inductionHypothesis (by omega) (unclosed.mono (by omega))
    have found : program[state.index + count]? = some program[state.index + count] :=
      List.getElem?_eq_getElem (by omega)
    have further := unclosed (state.index + (count + 1)) (Nat.le_refl _) (by omega)
    rw [← Nat.add_assoc, Program.between_succ found (by omega), Program.closers_append,
      Program.openers_append] at further
    have gate := gate_passing closed dead count
    -- Behind an endif the block must still be open, so the endif closes a dead one.
    have inside : program[state.index + count].kind = .endif -> inner ≠ [] := by
      rintro isEndif rfl
      simp [isEndif] at further depth
      omega
    obtain ⟨inner', skipped, dead', depth'⟩ := skip_passing state count dead _ inside
    refine ⟨inner', dead', ?_, ?_, ?_⟩
    · rw [← Nat.add_assoc, Program.between_succ found (by omega), Program.closers_append,
        Program.openers_append]
      omega
    · rw [← skipped]
      exact walk?_succ walked (.skip found gate)
    · intro limit
      rw [ran, ← skipped]
      exact run_skip found gate limit

/-- Closing a block that was skipped records its condition, if it was opened by a
condition that ran. -/
theorem closeBlock_passing
    {frame : Frame}
    {outer : List Frame}
    (innermost : state.frames = frame :: outer)
    (live : frame.live = true)
    (closed : frame.condition = false)
    (count : Nat) :
    (state.passing count []).advance.closeBlock =
      { state with
        index := state.index + count + 1
        steps := state.steps + count + 1
        frames := outer
        machine :=
          if frame.opener = .ifBlock then
            { state.machine with outcomes := state.machine.outcomes.push false }
          else state.machine } := by
  simp [closeBlock, passing, advance, innermost, live, closed]

end State

section Index

variable {sink : Sink} {program : Program} {state after : State} {failure : Option Failure}

/-- A step leads to an instruction of the program or right behind the last one. -/
theorem Transition.index_le
    (transition : Transition sink program state after failure)
    (marked : Marked program state.machine.returns) :
    after.index ≤ program.length := by
  have next : ∀ instruction, program[state.index]? = some instruction ->
      state.index + 1 ≤ program.length :=
    fun instruction found => (List.getElem?_eq_some_iff.mp found).1
  have landing : ∀ mark below, state.machine.returns.pop? = some (mark, below) ->
      mark ≤ program.length := by
    intro mark below popped
    rw [Stack.eq_push_of_pop?_eq_some popped] at marked
    obtain ⟨instruction, found, -⟩ := marked.top
    exact Nat.le_of_lt (List.getElem?_eq_some_iff.mp found).1
  cases transition with
  | skip found closed =>
    rw [State.index_skip]
    exact next _ found
  | perform found opened performs =>
    cases performs with
    | stop isEndif outside => exact Nat.le_refl _
    | jump isJump popped => exact landing _ _ popped
    | jumpIfTaken isJumpIf popped peeked truthy => exact landing _ _ popped
    | close isEndif nested =>
      rw [State.index_closeBlock]
      exact next _ found
    | _ => exact next _ found

theorem Reaches.index_le
    {width : Width}
    (reached : Reaches sink program (.initial width) state failure) :
    state.index ≤ program.length := by
  cases reached with
  | refl => exact Nat.zero_le _
  | step reached stepped =>
    apply (step?_eq_some_iff.mp stepped).index_le
    exact reached.marked fun mark listed => absurd listed List.not_mem_nil

end Index

/-- A block whose condition is false is skipped without effect, whatever stands in
it.  If the block has an endif, as many steps as there are instructions up to and
including it lead right behind it; none of them fails.  On the way the machine and
the output stay as they are, and in the end the block is gone and nothing else has
changed, but that a condition is recorded as false.  If the block has no endif, the
run passes the rest of the program and ends, with the machine and the output as they
are. -/
theorem skipped_block_has_no_effect
    (sink : Sink)
    (program : Program)
    (width : Width)
    {state : State}
    {failure : Option Failure}
    {frame : Frame}
    {outer : List Frame}
    (reached : Reaches sink program (.initial width) state failure)
    (innermost : state.frames = frame :: outer)
    (live : frame.live = true)
    (closed : frame.condition = false) :
    (∀ last, program.ClosesAt state.index last ->
      (∀ count ≤ last - state.index, ∃ inside,
        state.walk? sink program count = some inside ∧
        inside.index = state.index + count ∧ inside.gate = false ∧
        inside.machine = state.machine ∧ inside.output = state.output) ∧
      state.walk? sink program (last - state.index + 1) =
        some { state with
          index := last + 1
          steps := state.steps + (last - state.index) + 1
          frames := outer
          machine :=
            if frame.opener = .ifBlock then
              { state.machine with outcomes := state.machine.outcomes.push false }
            else state.machine }) ∧
    ((∀ last, ¬ program.ClosesAt state.index last) ->
      ∃ final, (∀ limit, state.run sink program limit = (final, .finished)) ∧
        final.index = program.length ∧
        final.machine = state.machine ∧ final.output = state.output) := by
  have gate : state.gate = false := by
    rw [State.gate, innermost]
    exact closed
  constructor
  · intro last closes
    obtain ⟨forward, ⟨instruction, found, isEndif⟩, balanced, unclosed⟩ := closes
    obtain ⟨inside, -⟩ := List.getElem?_eq_some_iff.mp found
    have last_eq : state.index + (last - state.index) = last := by omega
    constructor
    · intro count within
      obtain ⟨inner, dead, -, walked, -⟩ :=
        State.exists_passing sink gate count (by omega) (unclosed.mono (by omega))
      exact ⟨_, walked, rfl, State.gate_passing gate dead count, rfl, rfl⟩
    · obtain ⟨inner, dead, depth, walked, -⟩ :=
        State.exists_passing sink gate (last - state.index) (by omega) (last_eq ▸ unclosed)
      -- All blocks opened on the way have been closed, so the endif closes this one.
      obtain rfl : inner = [] := by
        rw [last_eq, balanced] at depth
        exact List.eq_nil_of_length_eq_zero (by omega)
      have skipped : (state.passing (last - state.index) []).skip instruction =
          (state.passing (last - state.index) []).advance.closeBlock := by
        rw [State.skip, isEndif]
      have arrived := State.closeBlock_passing innermost live closed (last - state.index)
      rw [last_eq] at arrived
      rw [← arrived, ← skipped]
      refine State.walk?_succ walked (.skip ?_ (State.gate_passing gate dead _))
      rw [State.index_passing, last_eq]
      exact found
  · intro never
    have within := reached.index_le
    have length_eq : state.index + (program.length - state.index) = program.length := by omega
    obtain ⟨inner, dead, -, -, ran⟩ :=
      State.exists_passing sink gate (program.length - state.index) (by omega)
        (Program.unclosed_of_forall_not_closesAt never _ (by omega))
    refine ⟨state.passing (program.length - state.index) inner, ?_, length_eq, rfl, rfl⟩
    intro limit
    rw [ran limit]
    apply run_past
    rw [List.getElem?_eq_none_iff]
    exact Nat.le_of_eq length_eq.symm

/-- A skipped block of instructions that would all fail, with another block inside. -/
def unrunnable : Program :=
  [{ kind := .push, value := 0, position := .nowhere }, .plain .ifOpen .nowhere,
    .plain .jump .nowhere, .plain .divide .nowhere, .plain (.undefined 0xEE) .nowhere,
    .plain .elseOpen .nowhere, { kind := .push, value := 1099511627776, position := .nowhere },
    .plain .load .nowhere, .plain .endif .nowhere, .plain .endif .nowhere]

/-- Eight steps lead behind the block, and its condition is recorded.  Without the
last endif the run ends in the block. -/
theorem skipped_block_has_no_effect_unrunnable :
    ∃ state : State,
      Reaches .unlimited unrunnable (.initial .standard) state none ∧
      Reaches .unlimited (unrunnable.take 9) (.initial .standard) state none ∧
      state.index = 2 ∧
      state.frames = [{ opener := .ifBlock, condition := false, live := true }] ∧
      unrunnable.ClosesAt 2 9 ∧
      state.walk? .unlimited unrunnable 8 =
        some { state with
          index := 10
          steps := 10
          frames := []
          machine := { state.machine with outcomes := state.machine.outcomes.push false } } ∧
      (∀ last, ¬ Program.ClosesAt (unrunnable.take 9) 2 last) ∧
      ∃ final, state.run .unlimited (unrunnable.take 9) 0 = (final, .finished) ∧
        final.machine = state.machine := by
  have reached : Reaches .unlimited unrunnable (.initial .standard) _ none :=
    .step (.step .refl rfl) rfl
  have reachedToo : Reaches .unlimited (unrunnable.take 9) (.initial .standard) _ none :=
    .step (.step .refl rfl) rfl
  have closes : unrunnable.ClosesAt 2 9 :=
    ⟨by decide, ⟨_, rfl, rfl⟩, by decide, by decide⟩
  have never : ∀ last, ¬ Program.ClosesAt (unrunnable.take 9) 2 last := by
    rintro last ⟨-, ⟨instruction, found, isEndif⟩, balanced, -⟩
    have unbalanced : ∀ last < 9,
        ((unrunnable.take 9)[last]?.any fun other => other.kind = .endif) ->
        Program.closers (Program.between (unrunnable.take 9) 2 last) ≠
          Program.openers (Program.between (unrunnable.take 9) 2 last) := by
      decide
    obtain ⟨inside, -⟩ := List.getElem?_eq_some_iff.mp found
    exact unbalanced last inside (by simp [found, isEndif]) balanced
  obtain ⟨final, ends, -, machine_eq, -⟩ :=
    (skipped_block_has_no_effect _ _ _ reachedToo rfl rfl rfl).2 never
  exact ⟨_, reached, reachedToo, rfl, rfl, closes,
    ((skipped_block_has_no_effect _ _ _ reached rfl rfl rfl).1 9 closes).2, never,
    final, ends 0, machine_eq⟩

end Engine
end GlyphStack
