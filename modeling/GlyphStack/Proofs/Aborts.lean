import GlyphStack.Proofs.Faults

/-!
# What a failing step leaves behind

A step that fails has done little.  An instruction may have taken its operands from
the stack before it failed, but never more of them than its kind takes, and a
conditional jump that finds no value has already taken its mark.  Nothing else is
changed, and nothing is printed.  So what a failing run has printed was printed by the
instructions that succeeded.
-/

namespace GlyphStack

/-- Only the empty stack has no top. -/
theorem Stack.peek?_eq_none_iff
    {α : Type}
    (stack : Stack α) :
    stack.peek? = none ↔ stack = .empty := by
  cases stack with
  | mk topDown => cases topDown <;> simp [peek?, empty]

/-- Only the clearing of the stack takes no fixed number of values. -/
theorem Kind.exists_pops?
    {kind : Kind}
    (notClear : kind ≠ .clear) :
    ∃ taken, kind.pops? = some taken := by
  cases kind <;> simp_all [pops?]

namespace Arithmetic

variable {kind : Kind}

theorem pops?_of_unary?
    {operation : Int64 -> Except Fault Int64}
    (isUnary : unary? kind = some operation) :
    kind.pops? = some 1 := by
  cases kind <;> simp_all [unary?, Kind.pops?]

theorem pops?_of_binary?
    {operation : Int64 -> Int64 -> Except Fault Int64}
    (isBinary : binary? kind = some operation) :
    kind.pops? = some 2 := by
  cases kind <;> simp_all [binary?, Kind.pops?]

/-- A computation with one value does not fail for want of values. -/
theorem unary?_ne_stackUnderflow
    {operation : Int64 -> Except Fault Int64}
    (isUnary : unary? kind = some operation)
    (a : Int64) :
    operation a ≠ .error .stackUnderflow := by
  cases kind with
  | not =>
    obtain rfl := Option.some.inj isUnary
    simp
  | negate =>
    obtain rfl := Option.some.inj isUnary
    unfold negate
    split <;> simp
  | _ => cases isUnary

/-- Nor does one with two values. -/
theorem binary?_ne_stackUnderflow
    {operation : Int64 -> Int64 -> Except Fault Int64}
    (isBinary : binary? kind = some operation)
    (a b : Int64) :
    operation a b ≠ .error .stackUnderflow := by
  intro failed
  cases kind with
  | add | subtract | multiply =>
    obtain rfl := Option.some.inj isBinary
    simpa using (narrow_eq_error failed).1
  | divide =>
    obtain rfl := Option.some.inj isBinary
    simpa using floorDiv_eq_error failed
  | modulo =>
    obtain rfl := Option.some.inj isBinary
    simpa using floorMod_eq_error failed
  | and | or | equality | greaterThan | lessThan =>
    obtain rfl := Option.some.inj isBinary
    cases failed
  | _ => cases isBinary

end Arithmetic

/-- Whether a stack is an earlier one without some values at its top, no more of them
than an instruction of the kind takes. -/
def Kind.TakesAtMost (kind : Kind) (before after : Stack Int64) : Prop :=
  ∃ removed taken, before.toList = after.toList ++ removed ∧
    kind.pops? = some taken ∧ removed.length ≤ taken

theorem Kind.takesAtMost_refl
    {kind : Kind}
    {taken : Nat}
    (takes : kind.pops? = some taken)
    (stack : Stack Int64) :
    kind.TakesAtMost stack stack :=
  ⟨[], taken, by simp, takes, Nat.zero_le taken⟩

/-- Whether a machine is an earlier one whose stack lacks at most what an instruction of
the kind takes. -/
structure Kind.Spares (kind : Kind) (machine left : Machine) : Prop where
  /-- All but the stack is the same. -/
  rest : left = { machine with stack := left.stack }
  /-- The stack lacks values at the top. -/
  values : kind.TakesAtMost machine.stack left.stack

namespace Kind.Spares

variable {kind : Kind} {taken : Nat} {machine : Machine}

theorem refl (takes : kind.pops? = some taken) : kind.Spares machine machine where
  rest := rfl
  values := kind.takesAtMost_refl takes machine.stack

theorem of_pop?
    (takes : kind.pops? = some 1)
    {value : Int64}
    {below : Stack Int64}
    (popped : machine.stack.pop? = some (value, below)) :
    kind.Spares machine { machine with stack := below } where
  rest := rfl
  values := by
    refine ⟨[value], 1, ?_, takes, Nat.le_refl 1⟩
    rw [Stack.eq_push_of_pop?_eq_some popped, Stack.toList_push]

theorem of_topDown
    (takes : kind.pops? = some 2)
    {a b : Int64}
    {below : List Int64}
    (operands : machine.stack.topDown = b :: a :: below) :
    kind.Spares machine { machine with stack := { topDown := below } } where
  rest := rfl
  values := ⟨[a, b], 2, by simp [Stack.toList, operands], takes, Nat.le_refl 2⟩

end Kind.Spares

/-- What an action has done to the machine if it fails, or if the text that it yields is
refused: it has at most taken its values, and none of them if they are too few. -/
def Action.SparesUnfinished
    (kind : Kind)
    (machine : Machine) : EStateM.Result Fault Machine (Option String) -> Prop
  | .ok none _ => True
  | .ok (some _) left => kind.Spares machine left
  | .error fault left => kind.Spares machine left ∧ (fault = .stackUnderflow -> left = machine)

namespace Effect

/-- A computed value that is not pushed leaves the machine as it is. -/
theorem sparesUnfinished_pushResult
    {kind : Kind}
    {machine left : Machine}
    (spares : kind.Spares machine left)
    {result : Except Fault Int64}
    (enough : result ≠ .error .stackUnderflow) :
    Action.SparesUnfinished kind machine (pushResult left result) := by
  cases result with
  | error fault =>
    refine ⟨spares, ?_⟩
    rintro rfl
    exact absurd rfl enough
  | ok value =>
    cases checked : left.width.check value with
    | ok accepted =>
      simp only [pushResult, checked]
      trivial
    | error excess =>
      simp only [pushResult, checked]
      exact ⟨spares, by simp⟩

theorem sparesUnfinished_apply
    (instruction : Instruction)
    (machine : Machine) :
    Action.SparesUnfinished instruction.kind machine (apply instruction machine) := by
  have underflow : ∀ taken, instruction.kind.pops? = some taken ->
      Action.SparesUnfinished instruction.kind machine (.error .stackUnderflow machine) :=
    fun taken takes => ⟨.refl takes, fun _ => rfl⟩
  cases family instruction.kind with
  | push isPush =>
    rw [apply_push _ isPush]
    cases machine.width.check instruction.value with
    | ok accepted => trivial
    | error excess => exact ⟨.refl (by rw [isPush]; rfl), by simp⟩
  | pop isPop =>
    have takes : instruction.kind.pops? = some 1 := by rw [isPop]; rfl
    rw [apply_pop _ isPop]
    cases popped : machine.stack.pop? with
    | none => exact underflow 1 takes
    | some result => exact .of_pop? takes popped
  | peek isPeek =>
    have takes : instruction.kind.pops? = some 1 := by rw [isPeek]; rfl
    rw [apply_peek _ isPeek]
    cases machine.stack.peek? with
    | none => exact underflow 1 takes
    | some value => exact .refl takes
  | clear isClear =>
    rw [apply_clear _ isClear]
    trivial
  | nonOp isNonOp =>
    rw [apply_nonOp _ isNonOp]
    trivial
  | chr isChr =>
    have takes : instruction.kind.pops? = some 1 := by rw [isChr]; rfl
    rw [apply_chr _ isChr]
    cases machine.stack.peek? with
    | none => exact underflow 1 takes
    | some value =>
      dsimp only
      cases character? value with
      | none => exact ⟨.refl takes, by simp⟩
      | some c => exact .refl takes
  | copy isCopy =>
    rw [apply_copy _ isCopy]
    cases machine.stack.peek? with
    | none => exact underflow 1 (by rw [isCopy]; rfl)
    | some value => trivial
  | toText isToText =>
    have takes : instruction.kind.pops? = some 0 := by rw [isToText]; rfl
    rw [apply_toText _ isToText]
    cases characters machine.stack.toList with
    | error fault => exact ⟨.refl takes, fun _ => rfl⟩
    | ok text => exact .refl takes
  | unary operation isUnary =>
    have takes := Arithmetic.pops?_of_unary? isUnary
    rw [apply_unary _ isUnary]
    cases popped : machine.stack.pop? with
    | none => exact underflow 1 takes
    | some result =>
      exact sparesUnfinished_pushResult (.of_pop? takes popped)
        (Arithmetic.unary?_ne_stackUnderflow isUnary _)
  | binary operation isBinary =>
    have takes := Arithmetic.pops?_of_binary? isBinary
    rw [apply_binary _ isBinary]
    rcases operands : machine.stack.topDown with _ | ⟨b, _ | ⟨a, below⟩⟩
    · exact underflow 2 takes
    · exact underflow 2 takes
    · exact sparesUnfinished_pushResult (.of_topDown takes operands)
        (Arithmetic.binary?_ne_stackUnderflow isBinary a b)
  | other isOther =>
    rw [apply_other _ isOther]
    have notClear : instruction.kind ≠ .clear := by
      intro isClear
      simp [isClear, Kind.isControl, Kind.classOf] at isOther
    obtain ⟨taken, takes⟩ := Kind.exists_pops? notClear
    exact ⟨.refl takes, by simp⟩

end Effect

namespace Engine

theorem sparesUnfinished_plainAction
    (instruction : Instruction)
    (machine : Machine) :
    Action.SparesUnfinished instruction.kind machine (plainAction instruction machine) := by
  by_cases isSave : instruction.kind = .save
  · rw [plainAction_save isSave]
    cases machine.stack.peek? with
    | none => exact ⟨.refl (by rw [isSave]; rfl), fun _ => rfl⟩
    | some value => trivial
  by_cases isLoad : instruction.kind = .load
  · rw [plainAction_load isLoad]
    cases machine.register with
    | none => exact ⟨.refl (by rw [isLoad]; rfl), by simp⟩
    | some value => trivial
  rw [plainAction_effect isSave isLoad]
  exact Effect.sparesUnfinished_apply instruction machine

/-- A plain instruction that fails has at most taken values. -/
theorem Memory.perform_failed
    {sink : Sink}
    {instruction : Instruction}
    {memory left : Memory}
    {fault : Fault}
    (failed : memory.perform sink instruction = (left, some fault)) :
    left = { memory with stack := left.stack, offered := left.offered } ∧
      instruction.kind.TakesAtMost memory.stack left.stack ∧
      (fault = .stackUnderflow -> left.stack = memory.stack) := by
  have unfinished := sparesUnfinished_plainAction instruction (memory.machine .empty)
  rw [perform] at failed
  cases acted : plainAction instruction (memory.machine .empty) with
  | error cause machine =>
    rw [acted] at unfinished
    obtain ⟨spares, underflow⟩ := unfinished
    simp only [acted, Prod.mk.injEq, Option.some.injEq] at failed
    obtain ⟨rfl, rfl⟩ := failed
    refine ⟨?_, spares.values, fun isUnderflow => ?_⟩
    · rw [spares.rest]
      rfl
    · rw [underflow isUnderflow]
      rfl
  | ok yielded machine =>
    cases yielded with
    | none => simp [acted] at failed
    | some piece =>
      rw [acted] at unfinished
      have spares : instruction.kind.Spares (memory.machine .empty) machine := unfinished
      cases accepted : sink.accepts memory.offered piece with
      | true => simp [acted, accepted] at failed
      | false =>
        -- The sink refuses the text after the values were taken.
        simp only [acted, accepted, Bool.false_eq_true, if_false, Prod.mk.injEq,
          Option.some.injEq] at failed
        obtain ⟨rfl, rfl⟩ := failed
        refine ⟨?_, spares.values, by simp⟩
        rw [spares.rest]
        rfl

/-- What a failing step leaves behind. -/
structure Aborts (program : Program) (state after : State) (failure : Failure) : Prop where
  /-- The failure is that of the next instruction. -/
  index_eq : failure.index = state.index
  found : program[state.index]? = some failure.instruction
  /-- Nothing is printed. -/
  output_eq : after.output = state.output
  register_eq : after.machine.register = state.machine.register
  outcomes_eq : after.machine.outcomes = state.machine.outcomes
  width_eq : after.machine.width = state.machine.width
  frames_eq : after.frames = state.frames
  /-- The stack lacks at most the values that the instruction takes. -/
  values : failure.instruction.kind.TakesAtMost state.machine.stack after.machine.stack
  /-- It lacks none if there were too few. -/
  values_of_underflow : failure.fault = .stackUnderflow ->
    after.machine.stack = state.machine.stack
  /-- A conditional jump without a value has lost its mark, and no other mark is
  lost. -/
  marks :
    if failure.instruction.kind = .jumpIf ∧ failure.fault = .stackUnderflow then
      state.machine.stack = .empty ∧
        ∃ mark, state.machine.returns = after.machine.returns.push mark
    else
      after.machine.returns = state.machine.returns
  /-- The instruction is passed. -/
  next_eq : after.index = state.index + 1
  steps_eq : after.steps = state.steps + 1

section Steps

variable {sink : Sink} {program : Program} {state after : State}

/-- A step that fails without touching the machine. -/
theorem aborts_advance
    {instruction : Instruction}
    {fault : Fault}
    (found : program[state.index]? = some instruction)
    (notClear : instruction.kind ≠ .clear)
    (noUnderflow : instruction.kind = .jumpIf -> fault ≠ .stackUnderflow) :
    Aborts program state state.advance (state.failure instruction fault) := by
  obtain ⟨taken, takes⟩ := Kind.exists_pops? notClear
  refine ⟨rfl, found, rfl, rfl, rfl, rfl, rfl, instruction.kind.takesAtMost_refl takes _,
    fun _ => rfl, ?_, rfl, rfl⟩
  rw [if_neg fun lost => noUnderflow lost.1 lost.2]
  rfl

/-- A step that fails aborts the run. -/
theorem Transition.aborts
    {failure : Failure}
    (transition : Transition sink program state after (some failure)) :
    Aborts program state after failure := by
  generalize failed : some failure = result at transition
  cases transition with
  | skip found closed => cases failed
  | @perform instruction after result found opened performs =>
    cases performs with
    | @plain memory fault isPlain performed =>
      cases fault with
      | none => cases failed
      | some fault =>
        obtain rfl := Option.some.inj failed
        obtain ⟨rest, values, underflow⟩ := Memory.perform_failed performed
        have notJumpIf : instruction.kind ≠ .jumpIf := by
          intro isJumpIf
          simp [isJumpIf, Kind.isPlain] at isPlain
        refine ⟨rfl, found, ?_, ?_, ?_, ?_, rfl, values, underflow, ?_, rfl, rfl⟩
        · exact congrArg Memory.output rest
        · exact congrArg Memory.register rest
        · exact congrArg Memory.outcomes rest
        · exact congrArg Memory.width rest
        · rw [if_neg fun lost => notJumpIf lost.1]
          rfl
    | ifUnderflow isIf empty =>
      obtain rfl := Option.some.inj failed
      exact aborts_advance found (by simp [isIf]) (by simp [isIf])
    | elseMissing isElse empty =>
      obtain rfl := Option.some.inj failed
      exact aborts_advance found (by simp [isElse]) (by simp)
    | jumpMissing isJump empty =>
      obtain rfl := Option.some.inj failed
      exact aborts_advance found (by simp [isJump]) (by simp)
    | jumpIfMissing isJumpIf empty =>
      obtain rfl := Option.some.inj failed
      exact aborts_advance found (by simp [isJumpIf]) (by simp)
    | @jumpIfUnderflow mark below isJumpIf popped empty =>
      obtain rfl := Option.some.inj failed
      have takes : instruction.kind.pops? = some 1 := by rw [isJumpIf]; rfl
      refine ⟨rfl, found, rfl, rfl, rfl, rfl, rfl, instruction.kind.takesAtMost_refl takes _,
        fun _ => rfl, ?_, rfl, rfl⟩
      rw [if_pos ⟨isJumpIf, rfl⟩]
      exact ⟨(Stack.peek?_eq_none_iff _).mp empty, mark, Stack.eq_push_of_pop?_eq_some popped⟩
    | _ => cases failed

end Steps

/-! ## What a failing run has printed -/

/-- The text that an instruction yields at a machine, if it yields one. -/
def yielded? (instruction : Instruction) (machine : Machine) : Option String :=
  match Effect.apply instruction machine with
  | .ok text _ => text
  | .error _ _ => none

/-- The text that an executed instruction yields. -/
def Moment.yielded? (moment : Moment) : Option String :=
  Engine.yielded? moment.instruction moment.state.machine

section Moments

variable {sink : Sink} {program : Program} {state after : State} {instruction : Instruction}

/-- Instructions that steer the run yield nothing. -/
theorem yielded?_of_isControl
    (isControl : instruction.kind.isControl)
    (machine : Machine) :
    yielded? instruction machine = none := by
  rw [yielded?, Effect.apply_other machine (.inl isControl)]

theorem yielded?_of_plainAction
    {text : Option String}
    {machine left : Machine}
    (acted : plainAction instruction machine = .ok text left) :
    yielded? instruction machine = text := by
  by_cases isSave : instruction.kind = .save
  · rw [yielded?_of_isControl (by rw [isSave]; rfl)]
    rw [plainAction_save isSave] at acted
    cases peeked : machine.stack.peek? <;> simp [peeked] at acted
    exact acted.1
  by_cases isLoad : instruction.kind = .load
  · rw [yielded?_of_isControl (by rw [isLoad]; rfl)]
    rw [plainAction_load isLoad] at acted
    cases held : machine.register <;> simp [held] at acted
    exact acted.1
  rw [plainAction_effect isSave isLoad] at acted
  rw [yielded?, acted]

theorem State.output_closeBlock (state : State) : state.closeBlock.output = state.output := by
  unfold closeBlock
  split <;> rfl

/-- An instruction that succeeds prints what it yields. -/
theorem Performs.output_eq
    (performs : Performs sink program state instruction after none) :
    after.output = state.output ++ (yielded? instruction state.machine).getD "" := by
  by_cases isPlain : instruction.kind.isPlain
  · have performed := performs.perform_eq
    rw [State.perform, State.performTo, execute_eq_plainAction isPlain,
      State.machine_advance] at performed
    cases acted : plainAction instruction state.machine with
    | error fault machine => simp [acted] at performed
    | ok text machine =>
      rw [yielded?_of_plainAction acted]
      cases text with
      | none =>
        simp only [acted, Prod.mk.injEq, and_true] at performed
        simp [← performed, State.advance]
      | some piece =>
        simp only [acted, write_apply] at performed
        cases accepted : sink.accepts state.offered piece with
        | false => simp [State.advance, accepted] at performed
        | true =>
          simp only [State.advance, accepted, if_true, Prod.mk.injEq, and_true] at performed
          simp [← performed]
  · have isControl : instruction.kind.isControl := by
      rcases Kind.steering_cases isPlain with is | is | is | is | is | is <;> rw [is] <;> rfl
    rw [yielded?_of_isControl isControl, Option.getD_none, String.append_empty]
    generalize unfailed : (none : Option Failure) = failure at performs
    cases performs with
    | plain steers => exact absurd steers isPlain
    | close isEndif nested => exact State.output_closeBlock state.advance
    | _ => rfl

theorem moments_skip
    (found : program[state.index]? = some instruction)
    (closed : state.gate = false)
    (limit : Nat) :
    state.moments sink program limit = (state.skip instruction).moments sink program limit := by
  rw [State.moments]
  split
  · simp_all
  · next other other_found =>
    obtain rfl : instruction = other := by simpa [found] using other_found
    simp [closed]

theorem moments_perform
    (found : program[state.index]? = some instruction)
    (opened : state.gate = true)
    (limit : Nat) :
    state.moments sink program (limit + 1) =
      state.moment instruction ::
        match state.perform sink program instruction with
        | (after, none) => after.moments sink program limit
        | (_, some _) => [] := by
  rw [State.moments]
  split
  · simp_all
  · next other other_found =>
    obtain rfl : instruction = other := by simpa [found] using other_found
    exact if_pos opened

/-- The last instruction that a failing run executes is the one that fails.  All those
before succeed, and the run has printed what they yield. -/
theorem State.moments_of_failed
    {limit : Nat}
    {final : State}
    {failure : Failure}
    (run : state.run sink program limit = (final, .failed failure)) :
    ∃ earlier last, state.moments sink program limit = earlier ++ [last] ∧
      last.index = failure.index ∧ last.instruction = failure.instruction ∧
      final.output = (earlier.filterMap Moment.yielded?).foldl (· ++ ·) state.output := by
  induction limit, state using run_induction sink program with
  | finished limit state past =>
    rw [run_past past] at run
    cases run
  | stopped state instruction found opened =>
    rw [run_stopped found opened] at run
    cases run
  | passed limit state instruction after found opened performed inductionHypothesis =>
    rw [run_perform found opened, performed] at run
    obtain ⟨earlier, last, moments_eq, index_eq, instruction_eq, output_eq⟩ :=
      inductionHypothesis run
    have performs := performs_perform sink program state instruction
    rw [performed] at performs
    refine ⟨state.moment instruction :: earlier, last, ?_, index_eq, instruction_eq, ?_⟩
    · rw [moments_perform found opened, performed]
      exact congrArg (List.cons _) moments_eq
    · rw [output_eq, performs.output_eq, List.filterMap_cons]
      have same : (state.moment instruction).yielded? = yielded? instruction state.machine := rfl
      rw [same]
      cases yielded? instruction state.machine <;> simp
  | failed limit state instruction after cause found opened performed =>
    rw [run_perform found opened, performed] at run
    cases run
    have performs := performs_perform sink program state instruction
    rw [performed] at performs
    have aborts := (Transition.perform found opened performs).aborts
    refine ⟨[], state.moment instruction, ?_, aborts.index_eq.symm, ?_, aborts.output_eq⟩
    · rw [moments_perform found opened, performed]
      rfl
    · exact Option.some.inj (found.symm.trans aborts.found)
  | skipped limit state instruction found closed inductionHypothesis =>
    rw [run_skip found closed] at run
    rw [moments_skip found closed]
    have passed : (state.skip instruction).output = state.output := by
      unfold State.skip
      dsimp only
      split
      · rfl
      · rfl
      · exact State.output_closeBlock state.advance
      · rfl
    rw [← passed]
    exact inductionHypothesis run

end Moments

/-- A failing step changes little.  Whatever the state and the sink, the failure names
the next instruction, which is passed; nothing is printed, and the register, the
outcomes and the open blocks are kept.  The stack lacks at most the values that the
instruction takes, and none of them if there were too few.  The marks are kept too,
but for the one that a conditional jump without a value has taken.  If the state is
reached in a run, this failure ends the run, and what a failing run has printed is
what its instructions before the last one yielded. -/
theorem failing_step_changes_little
    {sink : Sink}
    {program : Program}
    {state after : State}
    {failure : Failure}
    (failed : state.step? sink program = some (after, some failure)) :
    Aborts program state after failure ∧
    (∀ engine : Engine, Reaches sink program (.initial engine.width) state none ->
      ∃ limit, ∀ id, engine.run sink limit id program =
        (engine.afterRun sink program { id := id, state := after, failure := some failure },
          .failed failure)) ∧
    ∀ (engine final : Engine) limit id cause,
      engine.run sink limit id program = (final, .failed cause) ->
      ∃ earlier last, (State.initial engine.width).moments sink program limit =
          earlier ++ [last] ∧
        last.index = cause.index ∧ last.instruction = cause.instruction ∧
        final.latest.map (fun latest => latest.state.output) =
          some (String.join (earlier.filterMap Moment.yielded?)) := by
  refine ⟨(step?_eq_some_iff.mp failed).aborts, ?_, ?_⟩
  · intro engine reached
    obtain ⟨limit, run⟩ := (Ends.of_reached (.failed failed) reached).exists_run
    exact ⟨limit, run_of_ofFailure run⟩
  · intro engine final limit id cause ran
    rcases run : (State.initial engine.width).run sink program limit with ⟨state, ending⟩
    have ending_eq : ending = .failed cause := by
      simpa [run_eq engine run] using congrArg Prod.snd ran
    subst ending_eq
    obtain ⟨earlier, last, moments_eq, index_eq, instruction_eq, output_eq⟩ :=
      State.moments_of_failed run
    refine ⟨earlier, last, moments_eq, index_eq, instruction_eq, ?_⟩
    have kept := (run_eq engine run id).symm.trans ran
    rw [← show _ = final from congrArg Prod.fst kept, latest_afterRun]
    exact congrArg some output_eq

/-- A program that prints the same value twice. -/
def printTwice : Program :=
  [{ kind := .push, value := 5, position := .nowhere }, .plain .copy .nowhere,
    .plain .pop .nowhere, .plain .pop .nowhere]

/-- Where there is room for one byte only, the second value is taken from the stack and
not printed. -/
theorem failing_step_changes_little_full :
    ∃ state after failure limit,
      Reaches (.limited 1) printTwice (.initial .standard) state none ∧
      state.step? (.limited 1) printTwice = some (after, some failure) ∧
      state.machine.stack.toList = [5] ∧ after.machine.stack.toList = [] ∧
      failure.fault = .outputFull ∧
      Aborts printTwice state after failure ∧
      ((Engine.new .standard).run (.limited 1) limit "twice" printTwice).2 = .failed failure ∧
      after.output = "5" := by
  let state : State :=
    { machine := { Machine.new .standard with stack := { topDown := [5] } }
      frames := []
      index := 3
      steps := 3
      output := "5"
      offered := ["5"] }
  have reached : Reaches (.limited 1) printTwice (.initial .standard) state none :=
    .step (.step (.step .refl rfl) rfl) rfl
  have failed : state.step? (.limited 1) printTwice = some (_, some _) := rfl
  obtain ⟨aborts, ends, -⟩ := failing_step_changes_little failed
  obtain ⟨limit, ran⟩ := ends (.new .standard) reached
  exact ⟨state, _, _, limit, reached, failed, rfl, rfl, rfl, aborts, by rw [ran], rfl⟩

end Engine

end GlyphStack
