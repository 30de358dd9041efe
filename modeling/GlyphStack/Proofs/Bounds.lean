import GlyphStack.Proofs.Runs
import Mathlib.Algebra.Group.Int.Defs
import Mathlib.Algebra.Group.Nat.Defs

/-!
# Values stay within the bound of the width

Most values come onto the stack through a check of their magnitude.  Two do not:
a copy of the top value and the value of the register.  Neither can be out of
bounds, since the values on the stack and in the register never are.
-/

namespace GlyphStack

namespace Width

/-- The check accepts exactly the values within the bound. -/
theorem check_eq_ok_iff
    (width : Width)
    (value : Int64) :
    width.check value = .ok () ↔ width.admits value := by
  unfold check
  split <;> simp_all

/-- From eight bytes on every value is within the bound. -/
theorem admits_iff
    (width : Width)
    (value : Int64) :
    width.admits value ↔
      (width.bytes < 8 -> value.toInt.natAbs ≤ 2 ^ (8 * width.bytes)) := by
  unfold admits bound?
  by_cases narrow : width.bytes < 8 <;> simp [widest, narrow]

/-- The number of bytes that is meant by a number: the number itself, or four if
it is not positive. -/
def effective (bytes : Int) : Nat :=
  if 1 ≤ bytes then bytes.toNat else 4

theorem bytes_ofInt (bytes : Int) : (ofInt bytes).bytes = effective bytes := by
  unfold effective
  split
  · exact ofInt_of_pos (by omega)
  · rw [ofInt_of_nonpos (by omega)]
    rfl

end Width

/-- A machine of the given width holds only values within its bound. -/
structure Machine.Bounded (width : Width) (machine : Machine) : Prop where
  /-- The machine has the width. -/
  width_eq : machine.width = width
  /-- The values on the stack are within the bound. -/
  stack : ∀ value ∈ machine.stack.topDown, width.admits value
  /-- So is the register, once something was saved. -/
  register : ∀ value, machine.register = some value -> width.admits value

namespace Machine.Bounded

variable {width : Width} {machine : Machine}

theorem new (width : Width) : (Machine.new width).Bounded width where
  width_eq := rfl
  stack value onStack := by simp [Machine.new, Stack.empty] at onStack
  register value held := by simp [Machine.new] at held

/-- Marks and outcomes do not matter. -/
theorem of_values_eq
    {other : Machine}
    (bounded : machine.Bounded width)
    (sameWidth : other.width = machine.width)
    (sameStack : other.stack = machine.stack)
    (sameRegister : other.register = machine.register) :
    other.Bounded width where
  width_eq := sameWidth.trans bounded.width_eq
  stack := sameStack ▸ bounded.stack
  register := sameRegister ▸ bounded.register

/-- A stack whose values were all on the stack before is within the bound. -/
theorem withStack
    (bounded : machine.Bounded width)
    (stack : Stack Int64)
    (fewer : ∀ value ∈ stack.topDown, value ∈ machine.stack.topDown) :
    { machine with stack := stack : Machine }.Bounded width where
  width_eq := bounded.width_eq
  stack value onStack := bounded.stack value (fewer value onStack)
  register := bounded.register

/-- A value within the bound may be pushed. -/
theorem push
    (bounded : machine.Bounded width)
    {value : Int64}
    (admitted : width.admits value) :
    { machine with stack := machine.stack.push value : Machine }.Bounded width where
  width_eq := bounded.width_eq
  stack other onStack := by
    rcases List.mem_cons.mp onStack with rfl | below
    · exact admitted
    · exact bounded.stack other below
  register := bounded.register

/-- A value within the bound may be saved. -/
theorem save
    (bounded : machine.Bounded width)
    {value : Int64}
    (admitted : width.admits value) :
    { machine with register := some value : Machine }.Bounded width where
  width_eq := bounded.width_eq
  stack := bounded.stack
  register other held := by
    cases held
    exact admitted

theorem of_peek?
    (bounded : machine.Bounded width)
    {value : Int64}
    (peeked : machine.stack.peek? = some value) :
    width.admits value :=
  bounded.stack value (List.mem_of_mem_head? (by simpa [Stack.peek?] using peeked))

theorem of_pop?
    (bounded : machine.Bounded width)
    {value : Int64}
    {below : Stack Int64}
    (popped : machine.stack.pop? = some (value, below)) :
    { machine with stack := below : Machine }.Bounded width := by
  have shape : machine.stack = below.push value := Stack.eq_push_of_pop?_eq_some popped
  refine bounded.withStack below fun other onStack => ?_
  rw [shape]
  exact List.mem_cons_of_mem _ onStack

/-- A value that passes the check may be pushed. -/
theorem push_checked
    (bounded : machine.Bounded width)
    {value : Int64}
    (checked : machine.width.check value = .ok ()) :
    { machine with stack := machine.stack.push value : Machine }.Bounded width := by
  rw [bounded.width_eq] at checked
  exact bounded.push ((width.check_eq_ok_iff value).mp checked)

end Machine.Bounded

/-- The machine that an action leaves behind, whether it succeeds or fails. -/
def Action.left {α : Type} : EStateM.Result Fault Machine α -> Machine
  | .ok _ machine => machine
  | .error _ machine => machine

section Effects

variable {width : Width} {machine : Machine}

/-- A computed value is pushed only within the bound. -/
theorem Effect.bounded_pushResult
    (bounded : machine.Bounded width)
    (result : Except Fault Int64) :
    (Action.left (pushResult machine result)).Bounded width := by
  cases result with
  | error fault => exact bounded
  | ok value =>
    simp only [pushResult]
    cases checked : machine.width.check value with
    | ok accepted => exact bounded.push_checked checked
    | error overflow => exact bounded

/-- An effect leaves only values within the bound, also when it fails. -/
theorem Effect.bounded_apply
    (bounded : machine.Bounded width)
    (instruction : Instruction) :
    (Action.left (apply instruction machine)).Bounded width := by
  cases family instruction.kind with
  | push isPush =>
    rw [apply_push _ isPush]
    cases checked : machine.width.check instruction.value with
    | ok accepted => exact bounded.push_checked checked
    | error overflow => exact bounded
  | pop isPop =>
    rw [apply_pop _ isPop]
    cases popped : machine.stack.pop? with
    | none => exact bounded
    | some result => exact bounded.of_pop? popped
  | peek isPeek =>
    rw [apply_peek _ isPeek]
    cases machine.stack.peek? <;> exact bounded
  | clear isClear =>
    rw [apply_clear _ isClear]
    refine bounded.withStack .empty fun value onStack => ?_
    simp [Stack.empty] at onStack
  | nonOp isNonOp =>
    rw [apply_nonOp _ isNonOp]
    exact bounded
  | chr isChr =>
    rw [apply_chr _ isChr]
    cases machine.stack.peek? with
    | none => exact bounded
    | some value =>
      dsimp only
      cases character? value <;> exact bounded
  | copy isCopy =>
    rw [apply_copy _ isCopy]
    cases peeked : machine.stack.peek? with
    | none => exact bounded
    | some value => exact bounded.push (bounded.of_peek? peeked)
  | toText isToText =>
    rw [apply_toText _ isToText]
    cases characters machine.stack.toList <;> exact bounded
  | unary operation isUnary =>
    rw [apply_unary _ isUnary]
    cases popped : machine.stack.pop? with
    | none => exact bounded
    | some result => exact bounded_pushResult (bounded.of_pop? popped) _
  | binary operation isBinary =>
    rw [apply_binary _ isBinary]
    rcases values : machine.stack.topDown with _ | ⟨b, _ | ⟨a, below⟩⟩
    · exact bounded
    · exact bounded
    · refine bounded_pushResult (bounded.withStack _ fun value onStack => ?_) _
      rw [values]
      exact List.mem_cons_of_mem _ (List.mem_cons_of_mem _ onStack)
  | other isOther =>
    rw [apply_other _ isOther]
    exact bounded

namespace Engine

/-- So does every plain instruction. -/
theorem bounded_plainAction
    (bounded : machine.Bounded width)
    (instruction : Instruction) :
    (Action.left (plainAction instruction machine)).Bounded width := by
  by_cases isSave : instruction.kind = .save
  · rw [plainAction_save isSave]
    cases peeked : machine.stack.peek? with
    | none => exact bounded
    | some value => exact bounded.save (bounded.of_peek? peeked)
  by_cases isLoad : instruction.kind = .load
  · rw [plainAction_load isLoad]
    cases held : machine.register with
    | none => exact bounded
    | some value =>
      dsimp only
      exact held ▸ bounded.push (bounded.register value held)
  rw [plainAction_effect isSave isLoad]
  exact Effect.bounded_apply bounded instruction

end Engine

end Effects

namespace Engine

variable {width : Width}

theorem bounded_perform
    {memory : Memory}
    {marks : Stack Nat}
    (bounded : (memory.machine marks).Bounded width)
    (sink : Sink)
    (instruction : Instruction) :
    ((memory.perform sink instruction).1.machine marks).Bounded width := by
  have unmarked : (memory.machine .empty).Bounded width := bounded.of_values_eq rfl rfl rfl
  have left := bounded_plainAction unmarked instruction
  unfold Memory.perform
  cases acted : plainAction instruction (memory.machine .empty) with
  | error fault machine =>
    rw [acted] at left
    exact left.of_values_eq rfl rfl rfl
  | ok yielded machine =>
    rw [acted] at left
    cases yielded with
    | none => exact left.of_values_eq rfl rfl rfl
    | some piece =>
      dsimp only
      split <;> exact left.of_values_eq rfl rfl rfl

theorem bounded_closeBlock
    {state : State}
    (bounded : state.machine.Bounded width) :
    state.closeBlock.machine.Bounded width := by
  unfold State.closeBlock
  split
  · exact bounded
  · dsimp only
    split <;> exact bounded.of_values_eq rfl rfl rfl

theorem bounded_skip
    {state : State}
    (bounded : state.machine.Bounded width)
    (instruction : Instruction) :
    (state.skip instruction).machine.Bounded width := by
  have advanced : state.advance.machine.Bounded width := bounded
  unfold State.skip
  dsimp only
  split
  · exact advanced
  · exact advanced
  · exact bounded_closeBlock advanced
  · exact advanced

/-- No step brings a value out of bounds, not even one that fails. -/
theorem Transition.bounded
    {sink : Sink}
    {program : Program}
    {state after : State}
    {failure : Option Failure}
    (transition : Transition sink program state after failure)
    (bounded : state.machine.Bounded width) :
    after.machine.Bounded width := by
  cases transition with
  | skip found closed => exact bounded_skip bounded _
  | @perform instruction after failure found opened performs =>
    cases performs with
    | plain isPlain performed =>
      have left : ((state.memory.perform sink instruction).1.machine
          state.machine.returns).Bounded width := bounded_perform bounded sink instruction
      rw [performed] at left
      exact left
    | close isEndif nested => exact bounded_closeBlock bounded
    | _ => exact bounded.of_values_eq rfl rfl rfl

theorem Reaches.bounded
    {sink : Sink}
    {program : Program}
    {state : State}
    {failure : Option Failure}
    (reached : Reaches sink program (.initial width) state failure) :
    state.machine.Bounded width :=
  reached.invariant (.new width) fun _ _ _ bounded transition => transition.bounded bounded

/-- The two instructions that push without a check push a value from the stack
or from the register. -/
theorem perform_unchecked
    {sink : Sink}
    {program : Program}
    {state after : State}
    {instruction : Instruction}
    (unchecked : instruction.kind = .copy ∨ instruction.kind = .load)
    (performed : state.perform sink program instruction = (after, none)) :
    ∃ value, after.machine.stack = state.machine.stack.push value ∧
      (value ∈ state.machine.stack.topDown ∨ state.machine.register = some value) := by
  rcases unchecked with isCopy | isLoad
  · rw [State.perform_plain sink program state (by rw [isCopy]; rfl), Memory.perform,
      plainAction_effect (by simp [isCopy]) (by simp [isCopy]),
      Effect.apply_copy _ isCopy] at performed
    cases peeked : (state.memory.machine .empty).stack.peek? with
    | none => simp [peeked] at performed
    | some value =>
      simp only [peeked, Option.map_none, Prod.mk.injEq, and_true] at performed
      subst performed
      exact ⟨value, rfl, .inl (List.mem_of_mem_head? peeked)⟩
  · rw [State.perform_plain sink program state (by rw [isLoad]; rfl), Memory.perform,
      plainAction_load isLoad] at performed
    cases held : (state.memory.machine .empty).register with
    | none => simp [held] at performed
    | some value =>
      simp only [held, Option.map_none, Prod.mk.injEq, and_true] at performed
      subst performed
      exact ⟨value, rfl, .inr held⟩

/-- Wherever a run comes, whether or not its last step failed, the values on the
stack and in the register pass the check of the width, and so do the values that
are pushed without it. -/
theorem reachable_values_within_bound
    (sink : Sink)
    (program : Program)
    (bytes : Int)
    {state : State}
    {failure : Option Failure}
    (reached : Reaches sink program (.initial (.ofInt bytes)) state failure) :
    (∀ value, value ∈ state.machine.stack.toList ∨ state.machine.register = some value ->
      (Width.ofInt bytes).check value = .ok () ∧
      (Width.effective bytes < 8 ->
        value.toInt.natAbs ≤ 2 ^ (8 * Width.effective bytes)) ∧
      (8 ≤ Width.effective bytes -> -2 ^ 63 ≤ value.toInt ∧ value.toInt < 2 ^ 63)) ∧
    (∀ instruction after, failure = none ->
      program[state.index]? = some instruction ->
      instruction.kind = .copy ∨ instruction.kind = .load ->
      state.gate = true ->
      state.step? sink program = some (after, none) ->
      ∃ value, after.machine.stack = state.machine.stack.push value ∧
        (Width.ofInt bytes).check value = .ok ()) := by
  have bounded := reached.bounded
  have admitted : ∀ value, value ∈ state.machine.stack.topDown ∨
      state.machine.register = some value -> (Width.ofInt bytes).admits value := by
    rintro value (onStack | held)
    · exact bounded.stack value onStack
    · exact bounded.register value held
  refine ⟨fun value held => ?_, fun instruction after unfailed found unchecked opened stepped => ?_⟩
  · have fits := admitted value (by simpa [Stack.toList] using held)
    have magnitude := (Width.admits_iff _ _).mp fits
    rw [Width.bytes_ofInt] at magnitude
    exact ⟨(Width.check_eq_ok_iff _ _).mpr fits, magnitude,
      fun _ => ⟨value.le_toInt, value.toInt_lt⟩⟩
  · cases step?_eq_some_iff.mp stepped with
    | skip other closed => simp [opened] at closed
    | @perform other _ _ other_found _ performs =>
      obtain rfl : instruction = other := by simpa [found] using other_found
      obtain ⟨value, pushed, held⟩ := perform_unchecked unchecked performs.perform_eq
      exact ⟨value, pushed, (Width.check_eq_ok_iff _ _).mpr (admitted value held)⟩

/-- With one byte a sum of two values at the bound fails and leaves a third one
behind. -/
theorem reachable_values_within_bound_of_failed_sum :
    ∃ state failure,
      Reaches .unlimited
        [{ kind := .push, value := 256, position := .nowhere }, .plain .copy .nowhere,
          .plain .save .nowhere, .plain .load .nowhere, .plain .add .nowhere]
        (.initial (.ofInt 1)) state (some failure) ∧
      state.machine.stack.toList = [256] ∧
      failure.fault = .overflow { value := 512, bytes := 1 } ∧
      (Width.ofInt 1).check 256 = .ok () := by
  have reached : Reaches .unlimited
      [{ kind := .push, value := 256, position := .nowhere }, .plain .copy .nowhere,
        .plain .save .nowhere, .plain .load .nowhere, .plain .add .nowhere]
      (.initial (.ofInt 1)) _ _ :=
    .step (.step (.step (.step (.step .refl rfl) rfl) rfl) rfl) rfl
  have within := reachable_values_within_bound _ _ _ reached
  exact ⟨_, _, reached, rfl, rfl, (within.1 256 (.inl (by decide))).1⟩

end Engine

end GlyphStack
