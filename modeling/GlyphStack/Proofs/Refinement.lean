import GlyphStack.Proofs.Runs
import GlyphStack.Proofs.Structured

/-!
# Running structured code

A run works through a flat list of instructions with marks, open blocks and a
gate.  On the program that structured code stands for it does what the
interpreter does by recursion: it comes to an end exactly if the interpreter
does, and then with the same outcome.

A state is its memory together with its place and a count of steps.  The
interpreter knows the memory only.  The argument is that running an item of
structured code brings the run to the place behind the item, with the blocks and
marks that it had before.
-/

namespace GlyphStack
namespace Engine

/-- Where a run stands: the next instruction, the open blocks and the marks. -/
structure Place where
  /-- The index of the next instruction. -/
  index : Nat
  /-- The open blocks, innermost first. -/
  frames : List Frame
  /-- The marks. -/
  returns : Stack Nat

/-- The place a number of instructions further on. -/
def Place.forward (place : Place) (count : Nat) : Place :=
  { place with index := place.index + count }

theorem Place.forward_forward
    (place : Place)
    (first second : Nat) :
    (place.forward first).forward second = place.forward (first + second) := by
  simp [forward, Nat.add_assoc]

theorem Place.forward_bracketed
    (place : Place)
    (body rest : Nat) :
    (((place.forward 1).forward body).forward 1).forward rest =
      place.forward (1 + body + 1 + rest) := by
  simp [forward_forward, Nat.add_assoc]

namespace State

/-- The place of a state. -/
def place (state : State) : Place where
  index := state.index
  frames := state.frames
  returns := state.machine.returns

/-- Pass instructions without running them. -/
def pass (state : State) (count : Nat) : State :=
  { state with index := state.index + count, steps := state.steps + count }

theorem pass_pass
    (state : State)
    (first second : Nat) :
    (state.pass first).pass second = state.pass (first + second) := by
  simp [pass, Nat.add_assoc]

theorem skip_plain
    (state : State)
    {instruction : Instruction}
    (isPlain : instruction.kind.isPlain) :
    state.skip instruction = state.pass 1 := by
  cases kind : instruction.kind <;> simp_all [skip, Kind.isPlain] <;> rfl

theorem gate_eq_of_frames_eq
    {state other : State}
    (same : state.frames = other.frames) :
    state.gate = other.gate := by
  rw [gate, gate, same]

/-- Closing a block records the condition of a branch that was opened by an
instruction that ran. -/
theorem memory_closeBlock
    (state : State)
    {frame : Frame}
    {outer : List Frame}
    (frames : state.frames = frame :: outer) :
    state.closeBlock.memory =
      if frame.opener = .ifBlock ∧ frame.live then state.memory.record frame.condition
      else state.memory := by
  unfold closeBlock
  rw [frames]
  dsimp only
  split <;> rfl

end State

section Passing

variable {sink : Sink} {program : Program}

/-- An endif inside a block closes it, whether the block runs or not. -/
theorem Transition.close
    (state : State)
    {instruction : Instruction}
    (found : program[state.index]? = some instruction)
    (isEndif : instruction.kind = .endif)
    (inside : state.frames ≠ []) :
    Transition sink program state state.advance.closeBlock none := by
  cases gate : state.gate with
  | true => exact .perform found gate (.close isEndif inside)
  | false =>
    have skipped : state.skip instruction = state.advance.closeBlock := by
      simp [State.skip, isEndif]
    rw [← skipped]
    exact .skip found gate

/-- Code in brackets is passed if its opener, its body and its closer are. -/
theorem reaches_pass_bracketed
    {state entered : State}
    {bodySize restSize : Nat}
    (opens : Transition sink program state entered none)
    (inside : Reaches sink program entered (entered.pass bodySize) none)
    (closes : Transition sink program (entered.pass bodySize)
      (((state.pass 1).pass bodySize).pass 1) none)
    (behind : Reaches sink program (((state.pass 1).pass bodySize).pass 1)
      ((((state.pass 1).pass bodySize).pass 1).pass restSize) none) :
    Reaches sink program state (state.pass (1 + bodySize + 1 + restSize)) none := by
  have closed := (Reaches.single opens).trans (inside.trans (.single closes))
  have passed := closed.trans behind
  simpa only [State.pass_pass, Nat.add_assoc] using passed

/-- With the gate closed, structured code is passed without effect. -/
theorem reaches_pass
    (code : Code)
    (state : State)
    (closed : state.gate = false)
    (occurs : program.HasAt state.index code.flatten) :
    Reaches sink program state (state.pass code.size) none := by
  induction code generalizing state with
  | done => exact .refl
  | plain instruction rest restHypothesis =>
    obtain ⟨found, restOccurs⟩ := occurs
    have skipped : Transition sink program state (state.pass 1) none := by
      rw [← State.skip_plain state instruction.property]
      exact .skip found closed
    have passed := restHypothesis (state.pass 1) closed restOccurs
    rw [State.pass_pass, ← Code.size_plain instruction] at passed
    exact .trans (.single skipped) passed
  | branch opener body closer rest bodyHypothesis restHypothesis =>
    obtain ⟨openerFound, bodyOccurs, closerFound, restOccurs⟩ :=
      (Program.hasAt_bracketed ..).mp occurs
    have opens : Transition sink program state (state.skip opener.val) none :=
      .skip openerFound closed
    simp only [State.skip, opener.property] at opens
    rw [Code.size_bracketed (.branch opener body closer rest) rfl]
    exact reaches_pass_bracketed opens (bodyHypothesis _ rfl bodyOccurs)
      (.close _ closerFound closer.property (List.cons_ne_nil _ _))
      (restHypothesis _ closed restOccurs)
  | alternative opener body closer rest bodyHypothesis restHypothesis =>
    obtain ⟨openerFound, bodyOccurs, closerFound, restOccurs⟩ :=
      (Program.hasAt_bracketed ..).mp occurs
    have opens : Transition sink program state (state.skip opener.val) none :=
      .skip openerFound closed
    simp only [State.skip, opener.property] at opens
    rw [Code.size_bracketed (.alternative opener body closer rest) rfl]
    exact reaches_pass_bracketed opens (bodyHypothesis _ rfl bodyOccurs)
      (.close _ closerFound closer.property (List.cons_ne_nil _ _))
      (restHypothesis _ closed restOccurs)
  | loop opener body closer rest bodyHypothesis restHypothesis =>
    obtain ⟨openerFound, bodyOccurs, closerFound, restOccurs⟩ :=
      (Program.hasAt_bracketed ..).mp occurs
    -- No mark is set, so the conditional jump must not look for one.
    have opens : Transition sink program state (state.skip opener.val) none :=
      .skip openerFound closed
    have closes : Transition sink program ((state.pass 1).pass body.size)
        (((state.pass 1).pass body.size).skip closer.val) none :=
      .skip closerFound closed
    simp only [State.skip, opener.property] at opens
    simp only [State.skip, closer.property] at closes
    rw [Code.size_bracketed (.loop opener body closer rest) rfl]
    exact reaches_pass_bracketed opens (bodyHypothesis _ closed bodyOccurs) closes
      (restHypothesis _ closed restOccurs)

end Passing

/-- Steps lead from a state to an outcome, and unless it is a failure they lead to
the given place. -/
def Achieves
    (sink : Sink)
    (program : Program)
    (state : State)
    (place : Place)
    (outcome : Outcome) : Prop :=
  ∃ after, Reaches sink program state after outcome.failure ∧
    after.memory = outcome.memory ∧ (outcome.failure = none -> after.place = place)

/-- A run follows a bounded computation: it achieves the outcome, and if there is
none, it goes on for at least the given number of steps. -/
def Follows
    (sink : Sink)
    (program : Program)
    (bound : Nat)
    (state : State)
    (place : Place) : Option Outcome -> Prop
  | some outcome => Achieves sink program state place outcome
  | none => ∀ final failure, Ends sink program state final failure -> bound ≤ final.steps

namespace Follows

variable {sink : Sink} {program : Program} {bound : Nat} {state : State} {place : Place}
  {computation : Option Outcome}

theorem finished
    (state : State) :
    Follows sink program bound state state.place (some (.finished state.memory)) :=
  ⟨state, .refl, rfl, fun _ => rfl⟩

theorem failed
    {after : State}
    {memory : Memory}
    {instruction : Instruction}
    {fault : Fault}
    (transition : Transition sink program state after (some (state.failure instruction fault)))
    (left : after.memory = memory) :
    Follows sink program bound state place
      (some (.failed memory state.index instruction fault)) :=
  ⟨after, .single transition, left, fun unfailed => nomatch unfailed⟩

/-- A computation that has used up its rounds says nothing about a run that has
used up its steps. -/
theorem exhausted
    (reached : bound ≤ state.steps) :
    Follows sink program bound state place none :=
  fun _ _ ends => Nat.le_trans reached ends.steps_le

/-- What a run follows from a state on its way, it follows from the start. -/
theorem of_reaches
    {next : State}
    (reached : Reaches sink program state next none)
    (follows : Follows sink program bound next place computation) :
    Follows sink program bound state place computation := by
  cases computation with
  | none => exact fun final failure ends => follows final failure (ends.of_reaches reached)
  | some outcome =>
    obtain ⟨after, onward, memory_eq, place_eq⟩ := follows
    exact ⟨after, reached.trans onward, memory_eq, place_eq⟩

/-- A run follows one computation and then another. -/
theorem andThen
    {middle : Place}
    {next : Memory -> Option Outcome}
    (follows : Follows sink program bound state middle computation)
    (onward : ∀ after, state.steps ≤ after.steps -> after.place = middle ->
      Follows sink program bound after place (next after.memory)) :
    Follows sink program bound state place (Engine.andThen computation next) := by
  cases computation with
  | none => exact follows
  | some outcome =>
    obtain ⟨after, reached, memory_eq, place_eq⟩ := follows
    obtain ⟨memory, failure⟩ := outcome
    obtain rfl : after.memory = memory := memory_eq
    cases failure with
    | none => exact .of_reaches reached (onward after reached.steps_le (place_eq rfl))
    | some failure => exact ⟨after, reached, rfl, fun unfailed => nomatch unfailed⟩

end Follows

/-- Wherever a program has structured code, a run that comes there with the gate
open follows the interpreter to the place behind the code. -/
def Simulated
    (sink : Sink)
    (program : Program)
    (rounds : Nat)
    (code : Code) : Prop :=
  ∀ state : State, state.gate = true -> program.HasAt state.index code.flatten ->
    Follows sink program rounds state (state.place.forward code.size)
      (code.interpret sink rounds state.index state.memory)

namespace Simulated

variable {sink : Sink} {program : Program} {rounds : Nat} {body rest : Code}
  {state : State}

theorem from_place
    {next : State}
    {place : Place}
    (simulated : Simulated sink program rounds rest)
    (stands : next.place = place)
    (opened : next.gate = true)
    (occurs : program.HasAt place.index rest.flatten) :
    Follows sink program rounds next (place.forward rest.size)
      (rest.interpret sink rounds place.index next.memory) := by
  subst stands
  exact simulated next opened occurs

/-- Inside a block the body runs or is passed, as the gate says. -/
theorem guarded
    (simulated : Simulated sink program rounds body)
    (state : State)
    (occurs : program.HasAt state.index body.flatten) :
    Follows sink program rounds state (state.place.forward body.size)
      (if state.gate then body.interpret sink rounds state.index state.memory
        else some (.finished state.memory)) := by
  cases gate : state.gate with
  | true => exact simulated state gate occurs
  | false => exact .of_reaches (reaches_pass body state gate occurs) (.finished _)

/-- A block that was just opened is run or passed, and closed, and then the rest
is run. -/
theorem block
    {entered : State}
    {frame : Frame}
    {closer : Instruction.Of .endif}
    (bodySimulated : Simulated sink program rounds body)
    (restSimulated : Simulated sink program rounds rest)
    (opened : state.gate = true)
    (enters : Transition sink program state (entered.openBlock frame) none)
    (stands : entered.place = state.place.forward 1)
    (bodyOccurs : program.HasAt (state.index + 1) body.flatten)
    (closerFound : program[state.index + 1 + body.size]? = some closer.val)
    (restOccurs : program.HasAt (state.index + 1 + body.size + 1) rest.flatten) :
    Follows sink program rounds state (state.place.forward (1 + body.size + 1 + rest.size))
      (andThen
        (if frame.condition then body.interpret sink rounds (state.index + 1) entered.memory
          else some (.finished entered.memory))
        fun after =>
          rest.interpret sink rounds (state.index + 1 + body.size + 1)
            (if frame.opener = .ifBlock ∧ frame.live then after.record frame.condition
              else after)) := by
  have entered_index : entered.index = state.index + 1 := congrArg Place.index stands
  have entered_frames : entered.frames = state.frames := congrArg Place.frames stands
  have entered_returns : entered.machine.returns = state.machine.returns :=
    congrArg Place.returns stands
  have inside := bodySimulated.guarded (entered.openBlock frame) (by
    rw [State.index_openBlock, entered_index]
    exact bodyOccurs)
  refine .of_reaches (.single enters) ?_
  rw [← entered_index]
  refine .andThen inside ?_
  intro after later afterStands
  have after_index : after.index = entered.index + body.size := congrArg Place.index afterStands
  have after_frames : after.frames = frame :: entered.frames := congrArg Place.frames afterStands
  have after_returns : after.machine.returns = entered.machine.returns :=
    congrArg Place.returns afterStands
  have closes : Transition sink program after after.advance.closeBlock none := by
    refine .close after ?_ closer.property (by simp [after_frames])
    rw [after_index, entered_index]
    exact closerFound
  -- Behind the closer the blocks and marks are those of the start, so the gate is open.
  have closed_place : after.advance.closeBlock.place =
      ((state.place.forward 1).forward body.size).forward 1 := by
    simp [State.place, Place.forward, after_index, after_frames, after_returns, entered_index,
      entered_frames, entered_returns]
  have closed_gate : after.advance.closeBlock.gate = true :=
    (State.gate_eq_of_frames_eq (congrArg Place.frames closed_place)).trans opened
  have closed_memory := State.memory_closeBlock after.advance after_frames
  have onward := restSimulated.from_place closed_place closed_gate restOccurs
  rw [closed_memory] at onward
  rw [entered_index, ← Place.forward_bracketed]
  exact .of_reaches (.single closes) onward

/-- A loop whose first instruction stands next is run round by round. -/
theorem repeated
    {opener : Instruction.Of .mark}
    {closer : Instruction.Of .jumpIf}
    (simulated : Simulated sink program rounds body)
    (count : Nat)
    (state : State)
    (enough : rounds ≤ state.steps + count)
    (opened : state.gate = true)
    (openerFound : program[state.index]? = some opener.val)
    (bodyOccurs : program.HasAt (state.index + 1) body.flatten)
    (closerFound : program[state.index + 1 + body.size]? = some closer.val) :
    Follows sink program rounds state (((state.place.forward 1).forward body.size).forward 1)
      (Code.repeated closer.val (state.index + 1 + body.size)
        (body.interpret sink rounds (state.index + 1)) count state.memory) := by
  -- Every round takes a step, so the rounds left and the steps made still add up.
  induction count generalizing state with
  | zero => exact .exhausted enough
  | succ count inductionHypothesis =>
    let marked := state.advance.withReturns (state.machine.returns.push state.index)
    have marks : Transition sink program state marked none :=
      .perform openerFound opened (.mark opener.property)
    rw [Code.repeated]
    refine .of_reaches (.single marks) (.andThen (simulated marked opened bodyOccurs) ?_)
    intro after later stands
    have index_eq : after.index = state.index + 1 + body.size := congrArg Place.index stands
    have frames_eq : after.frames = state.frames := congrArg Place.frames stands
    have returns_eq : after.machine.returns = state.machine.returns.push state.index :=
      congrArg Place.returns stands
    have popped : after.machine.returns.pop? = some (state.index, state.machine.returns) := by
      rw [returns_eq, Stack.pop?_push]
    have found : program[after.index]? = some closer.val := by
      rw [index_eq]
      exact closerFound
    have gate : after.gate = true := (State.gate_eq_of_frames_eq frames_eq).trans opened
    cases peeked : after.memory.stack.peek? with
    | none =>
      have fails : Transition sink program after
          (after.advance.withReturns state.machine.returns)
          (some (after.failure closer.val .stackUnderflow)) :=
        .perform found gate (.jumpIfUnderflow closer.property popped peeked)
      dsimp only
      rw [← index_eq]
      exact .failed fails rfl
    | some top =>
      dsimp only
      cases truth : Arithmetic.truthy top with
      | false =>
        have passes : Transition sink program after
            (after.advance.withReturns state.machine.returns) none :=
          .perform found gate (.jumpIfPassed closer.property popped peeked truth)
        have place_eq : (after.advance.withReturns state.machine.returns).place =
            ((state.place.forward 1).forward body.size).forward 1 := by
          simp [State.place, Place.forward, index_eq, frames_eq]
        rw [← place_eq]
        exact .of_reaches (.single passes) (.finished _)
      | true =>
        -- The mark is gone, and the run is back where the loop sets it again.
        let again := (after.advance.withReturns state.machine.returns).withIndex state.index
        have jumps : Transition sink program after again none :=
          .perform found gate (.jumpIfTaken closer.property popped peeked truth)
        have place_eq : again.place = state.place := by
          simp [State.place, again, frames_eq]
        have taken : rounds ≤ again.steps + count := by
          have marked_steps : marked.steps = state.steps + 1 := rfl
          have again_steps : again.steps = after.steps + 1 := rfl
          omega
        have onward := inductionHypothesis again taken gate openerFound bodyOccurs closerFound
        rw [place_eq] at onward
        exact .of_reaches (.single jumps) onward

end Simulated

/-- A run follows the interpreter through all structured code. -/
theorem simulated
    (sink : Sink)
    (program : Program)
    (rounds : Nat)
    (code : Code) :
    Simulated sink program rounds code := by
  induction code with
  | done =>
    intro state opened occurs
    exact .finished state
  | plain instruction rest restSimulated =>
    intro state opened occurs
    obtain ⟨found, restOccurs⟩ := occurs
    rw [Code.interpret, Code.size_plain, ← Place.forward_forward]
    rcases performed : state.memory.perform sink instruction.val with ⟨memory, fault⟩
    have performs : Transition sink program state (state.advance.withMemory memory)
        (fault.map (state.failure instruction.val)) :=
      .perform found opened (.plain instruction.property performed)
    cases fault with
    | none =>
      exact .of_reaches (.single performs) (restSimulated.from_place rfl opened restOccurs)
    | some fault => exact .failed performs rfl
  | branch opener body closer rest bodySimulated restSimulated =>
    intro state opened occurs
    obtain ⟨openerFound, bodyOccurs, closerFound, restOccurs⟩ :=
      (Program.hasAt_bracketed ..).mp occurs
    rw [Code.interpret, Code.size_bracketed (.branch opener body closer rest) rfl]
    cases peeked : state.memory.stack.peek? with
    | none =>
      have fails : Transition sink program state state.advance
          (some (state.failure opener.val .stackUnderflow)) :=
        .perform openerFound opened (.ifUnderflow opener.property peeked)
      exact .failed fails rfl
    | some top =>
      have enters : Transition sink program state
          (state.advance.openBlock
            { opener := .ifBlock, condition := Arithmetic.truthy top, live := true }) none :=
        .perform openerFound opened (.ifOpen opener.property peeked)
      exact bodySimulated.block restSimulated opened enters rfl bodyOccurs closerFound restOccurs
  | alternative opener body closer rest bodySimulated restSimulated =>
    intro state opened occurs
    obtain ⟨openerFound, bodyOccurs, closerFound, restOccurs⟩ :=
      (Program.hasAt_bracketed ..).mp occurs
    rw [Code.interpret, Code.size_bracketed (.alternative opener body closer rest) rfl]
    rcases popped : state.memory.outcomes.pop? with _ | ⟨taken, below⟩
    · have fails : Transition sink program state state.advance
          (some (state.failure opener.val (.emptyControlStack .outcome))) :=
        .perform openerFound opened (.elseMissing opener.property popped)
      exact .failed fails rfl
    · have enters : Transition sink program state
          ((state.advance.withOutcomes below).openBlock
            { opener := .elseBlock, condition := !taken, live := true }) none :=
        .perform openerFound opened (.elseOpen opener.property popped)
      have follows := bodySimulated.block restSimulated opened enters rfl bodyOccurs closerFound
        restOccurs
      cases taken <;> exact follows
  | loop opener body closer rest bodySimulated restSimulated =>
    intro state opened occurs
    obtain ⟨openerFound, bodyOccurs, closerFound, restOccurs⟩ :=
      (Program.hasAt_bracketed ..).mp occurs
    have rounded := bodySimulated.repeated rounds state (Nat.le_add_left _ _) opened openerFound
      bodyOccurs closerFound
    rw [Code.interpret, Code.size_bracketed (.loop opener body closer rest) rfl,
      ← Place.forward_bracketed]
    refine .andThen rounded ?_
    intro after later stands
    have gate : after.gate = true :=
      (State.gate_eq_of_frames_eq (congrArg Place.frames stands)).trans opened
    exact restSimulated.from_place stands gate restOccurs

/-- The outcome that an engine shows after a run, unless the run was stopped. -/
def observed : Engine × Ending -> Option Outcome
  | (_, .stopped _) => none
  | (engine, _) =>
    engine.latest.map fun latest => { memory := latest.state.memory, failure := latest.failure }

section Observed

variable {engine : Engine} {sink : Sink} {limit : Nat} {id : String} {program : Program}

theorem observed_eq (result : Engine × Ending) :
    observed result = (ended? result).map fun latest =>
      { memory := latest.state.memory, failure := latest.failure } := by
  obtain ⟨engine, ending⟩ := result
  cases ending <;> rfl

theorem observed_run
    {final : State}
    {failure : Option Failure}
    (run : (State.initial engine.width).run sink program limit = (final, .ofFailure failure)) :
    observed (engine.run sink limit id program) =
      some { memory := final.memory, failure := failure } := by
  rw [run_of_ofFailure run]
  cases failure <;> rfl

/-- A run that is not stopped shows the end that its steps lead to. -/
theorem ends_of_observed
    {outcome : Outcome}
    (shown : observed (engine.run sink limit id program) = some outcome) :
    ∃ final, Ends sink program (.initial engine.width) final outcome.failure ∧
      final.memory = outcome.memory := by
  rw [observed_eq, Option.map_eq_some_iff] at shown
  obtain ⟨latest, ended, rfl⟩ := shown
  exact ⟨latest.state, ends_of_ended? ended, rfl⟩

end Observed

/-- What the interpreter computes for structured code is where the run of its
program ends. -/
theorem ends_of_interpret
    {sink : Sink}
    {width : Width}
    {code : Code}
    {rounds : Nat}
    {outcome : Outcome}
    (interpreted : code.interpret sink rounds 0 (.initial width) = some outcome) :
    ∃ final, Ends sink code.flatten (.initial width) final outcome.failure ∧
      final.memory = outcome.memory := by
  have follows := simulated sink code.flatten rounds code (.initial width) rfl
    (Program.hasAt_zero_self code.flatten)
  rw [show (State.initial width).index = 0 from rfl, State.memory_initial, interpreted] at follows
  obtain ⟨final, reached, memory_eq, place_eq⟩ := follows
  refine ⟨final, reached.ends ?_, memory_eq⟩
  intro unfailed
  have index_eq : final.index = 0 + code.size := congrArg Place.index (place_eq unfailed)
  rw [index_eq, Nat.zero_add]
  exact List.getElem?_eq_none (Nat.le_refl _)

/-- If the run of structured code ends, the interpreter has an outcome within as
many rounds as the run makes steps. -/
theorem interpret_of_ends
    {sink : Sink}
    {width : Width}
    {code : Code}
    {final : State}
    {failure : Option Failure}
    (ends : Ends sink code.flatten (.initial width) final failure) :
    ∃ outcome, code.interpret sink (final.steps + 1) 0 (.initial width) = some outcome := by
  have follows := simulated sink code.flatten (final.steps + 1) code (.initial width) rfl
    (Program.hasAt_zero_self code.flatten)
  cases interpreted : code.interpret sink (final.steps + 1) 0 (.initial width) with
  | some outcome => exact ⟨outcome, rfl⟩
  | none =>
    rw [show (State.initial width).index = 0 from rfl, State.memory_initial, interpreted] at follows
    exact absurd (follows final failure ends) (Nat.not_succ_le_self _)

/-- The run of the program that structured code stands for comes to an end exactly
if the recursive interpreter does, and then with the same outcome: the same
output, values, register and recorded conditions, and the same failure at the
same instruction or none. -/
theorem structured_run_refines_interpreter
    (engine : Engine)
    (sink : Sink)
    (id : String)
    (code : Code) :
    ((∃ limit outcome, observed (engine.run sink limit id code.flatten) = some outcome) ↔
      ∃ rounds outcome, code.interpret sink rounds 0 (.initial engine.width) = some outcome) ∧
    ∀ limit rounds ran interpreted,
      observed (engine.run sink limit id code.flatten) = some ran ->
      code.interpret sink rounds 0 (.initial engine.width) = some interpreted ->
      ran = interpreted := by
  refine ⟨⟨?_, ?_⟩, ?_⟩
  · rintro ⟨limit, outcome, shown⟩
    obtain ⟨final, ends, -⟩ := ends_of_observed shown
    exact ⟨final.steps + 1, interpret_of_ends ends⟩
  · rintro ⟨rounds, outcome, interpreted⟩
    obtain ⟨final, ends, -⟩ := ends_of_interpret interpreted
    obtain ⟨limit, run⟩ := ends.exists_run
    exact ⟨limit, _, observed_run run⟩
  · rintro limit rounds ⟨memory, failure⟩ ⟨memory', failure'⟩ shown computed
    obtain ⟨final, ends, memory_eq⟩ := ends_of_observed shown
    obtain ⟨final', ends', memory_eq'⟩ := ends_of_interpret computed
    obtain ⟨rfl, same⟩ := ends.unique ends'
    dsimp only at memory_eq memory_eq' same
    rw [← memory_eq, ← memory_eq', same]

/-- Count down from two and print every number.  The alternative holds a loop that
is never run. -/
def countdown : Code :=
  .plain ⟨{ kind := .push, value := 2, position := .nowhere }, rfl⟩
    (.loop ⟨.plain .mark .nowhere, rfl⟩
      (.branch ⟨.plain .ifOpen .nowhere, rfl⟩
        (.plain ⟨{ kind := .push, value := -1, position := .nowhere }, rfl⟩
          (.plain ⟨.plain .add .nowhere, rfl⟩
            (.plain ⟨.plain .peek .nowhere, rfl⟩ .done)))
        ⟨.plain .endif .nowhere, rfl⟩
        (.alternative ⟨.plain .elseOpen .nowhere, rfl⟩
          (.loop ⟨.plain .mark .nowhere, rfl⟩ .done ⟨.plain .jumpIf .nowhere, rfl⟩ .done)
          ⟨.plain .endif .nowhere, rfl⟩
          .done))
      ⟨.plain .jumpIf .nowhere, rfl⟩
      .done)

/-- What is left of the countdown. -/
def countedDown : Outcome :=
  .finished
    { stack := { topDown := [0] }
      outcomes := .empty
      register := none
      width := .standard
      output := "10"
      offered := ["0", "1"] }

theorem structured_run_refines_interpreter_countdown :
    ∃ limit,
      observed ((Engine.new .standard).run .unlimited limit "countdown" countdown.flatten) =
        some countedDown := by
  have interpreted : countdown.interpret .unlimited 3 0 (.initial .standard) =
      some countedDown := by
    decide
  obtain ⟨ends, agree⟩ :=
    structured_run_refines_interpreter (.new .standard) .unlimited "countdown" countdown
  obtain ⟨limit, outcome, shown⟩ := ends.mpr ⟨3, countedDown, interpreted⟩
  refine ⟨limit, ?_⟩
  rw [shown, agree limit 3 outcome countedDown shown interpreted]

end Engine
end GlyphStack
