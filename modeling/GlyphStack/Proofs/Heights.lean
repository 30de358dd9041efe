import GlyphStack.Proofs.Aborts

/-!
# The stack effects of kinds

Every kind names how many values it takes from the stack and how many it leaves in
their place.  Instructions keep to these numbers.  They fail for want of values
exactly on a stack that is lower than what their kind takes, and where they succeed
they replace just these values at the top.

There is one exception to the first part.  A conditional jump looks for its mark
before it looks for its value, so without a mark it is the mark that it misses.
-/

namespace GlyphStack

/-- What was on top can be taken off. -/
theorem Stack.exists_push_of_peek?
    {α : Type}
    {stack : Stack α}
    {value : α}
    (peeked : stack.peek? = some value) :
    ∃ below : Stack α, stack = below.push value := by
  obtain ⟨below, topDown_eq⟩ := List.head?_eq_some_iff.mp peeked
  exact ⟨{ topDown := below }, congrArg Stack.mk topDown_eq⟩

namespace Kind

/-- Whether a stack has fewer values than a kind takes. -/
def Lacks (kind : Kind) (stack : Stack Int64) : Prop :=
  ∃ taken, kind.pops? = some taken ∧ stack.size < taken

/-- Whether a stack is an earlier one in which the values that a kind takes are
replaced by as many as it leaves. -/
structure Reshapes (kind : Kind) (before after : Stack Int64) : Prop where
  /-- A kind that takes all values leaves none. -/
  cleared : kind.pops? = none -> after = .empty
  /-- Any other kind works at the top. -/
  replaced : ∀ taken, kind.pops? = some taken -> ∃ kept removed added,
    before.toList = kept ++ removed ∧ removed.length = taken ∧
    after.toList = kept ++ added ∧ added.length = kind.pushes

variable {kind : Kind} {before after : Stack Int64}

theorem Reshapes.of_append
    (kept removed added : List Int64)
    (takes : kind.pops? = some removed.length)
    (leaves : kind.pushes = added.length)
    (before_eq : before.toList = kept ++ removed)
    (after_eq : after.toList = kept ++ added) :
    kind.Reshapes before after where
  cleared takesAll := by simp [takes] at takesAll
  replaced taken takes' := by
    obtain rfl : removed.length = taken := by simpa [takes] using takes'
    exact ⟨kept, removed, added, before_eq, rfl, after_eq, leaves.symm⟩

/-- A kind that takes and leaves nothing may keep the stack. -/
theorem Reshapes.refl
    (takes : kind.pops? = some 0)
    (leaves : kind.pushes = 0)
    (stack : Stack Int64) :
    kind.Reshapes stack stack :=
  .of_append stack.toList [] [] takes leaves (by simp) (by simp)

/-- A kind that takes nothing may leave one value on top. -/
theorem Reshapes.push
    (takes : kind.pops? = some 0)
    (leaves : kind.pushes = 1)
    (stack : Stack Int64)
    (value : Int64) :
    kind.Reshapes stack (stack.push value) :=
  .of_append stack.toList [] [value] takes leaves (by simp) (by simp)

/-- A kind that takes the top value may leave it there. -/
theorem Reshapes.peek
    (takes : kind.pops? = some 1)
    (leaves : kind.pushes = 1)
    {stack : Stack Int64}
    {value : Int64}
    (peeked : stack.peek? = some value) :
    kind.Reshapes stack stack := by
  obtain ⟨below, rfl⟩ := Stack.exists_push_of_peek? peeked
  exact .of_append below.toList [value] [value] takes leaves (by simp) (by simp)

/-- What is replaced was there. -/
theorem Reshapes.not_lacks
    (reshapes : kind.Reshapes before after) :
    ¬ kind.Lacks before := by
  rintro ⟨taken, takes, few⟩
  obtain ⟨kept, removed, added, before_eq, rfl, -, -⟩ := reshapes.replaced taken takes
  rw [← Stack.length_toList, before_eq, List.length_append] at few
  omega

/-- The height changes by the numbers of the kind, and all values below those that it
takes stay. -/
theorem Reshapes.height
    (reshapes : kind.Reshapes before after)
    {taken : Nat}
    (takes : kind.pops? = some taken) :
    taken ≤ before.size ∧ after.size = before.size - taken + kind.pushes ∧
      after.toList.take (before.size - taken) = before.toList.take (before.size - taken) := by
  obtain ⟨kept, removed, added, before_eq, rfl, after_eq, leaves⟩ :=
    reshapes.replaced taken takes
  have before_size : before.size = kept.length + removed.length := by
    rw [← Stack.length_toList, before_eq, List.length_append]
  have after_size : after.size = kept.length + added.length := by
    rw [← Stack.length_toList, after_eq, List.length_append]
  have kept_length : before.size - removed.length = kept.length := by omega
  refine ⟨by omega, by omega, ?_⟩
  rw [kept_length, before_eq, after_eq, List.take_left, List.take_left]

theorem lacks_iff
    {taken : Nat}
    (takes : kind.pops? = some taken)
    (stack : Stack Int64) :
    kind.Lacks stack ↔ stack.size < taken := by
  simp [Lacks, takes]

theorem lacks_of_peek?_eq_none
    (takes : kind.pops? = some 1)
    {stack : Stack Int64}
    (empty : stack.peek? = none) :
    kind.Lacks stack := by
  rw [(Stack.peek?_eq_none_iff stack).mp empty, lacks_iff takes]
  exact Nat.zero_lt_one

theorem lacks_of_pop?_eq_none
    (takes : kind.pops? = some 1)
    {stack : Stack Int64}
    (empty : stack.pop? = none) :
    kind.Lacks stack := by
  rw [(Stack.pop?_eq_none_iff stack).mp empty, lacks_iff takes]
  exact Nat.zero_lt_one

theorem not_lacks_of_peek?
    (takes : kind.pops? = some 1)
    {stack : Stack Int64}
    {value : Int64}
    (peeked : stack.peek? = some value) :
    ¬ kind.Lacks stack := by
  obtain ⟨below, rfl⟩ := Stack.exists_push_of_peek? peeked
  simp [lacks_iff takes, Stack.size, Stack.push]

end Kind

/-- What the numbers of a kind promise of an action: it succeeds as they say, and it
fails for want of values exactly if there are too few. -/
def Action.KeepsTo
    (kind : Kind)
    (machine : Machine) : EStateM.Result Fault Machine (Option String) -> Prop
  | .ok _ left => kind.Reshapes machine.stack left.stack
  | .error fault _ => fault = .stackUnderflow ↔ kind.Lacks machine.stack

namespace Action

variable {kind : Kind} {machine : Machine}

theorem keepsTo_underflow
    (lacks : kind.Lacks machine.stack)
    (left : Machine) :
    KeepsTo kind machine (.error .stackUnderflow left) := by
  simp [KeepsTo, lacks]

theorem keepsTo_error
    (enough : ¬ kind.Lacks machine.stack)
    {fault : Fault}
    (other : fault ≠ .stackUnderflow)
    (left : Machine) :
    KeepsTo kind machine (.error fault left) := by
  simp [KeepsTo, other, enough]

end Action

/-! ## Effects -/

namespace Arithmetic

variable {kind : Kind}

theorem pushes_of_unary?
    {operation : Int64 -> Except Fault Int64}
    (isUnary : unary? kind = some operation) :
    kind.pushes = 1 := by
  cases kind <;> simp_all [unary?, Kind.pushes]

theorem pushes_of_binary?
    {operation : Int64 -> Int64 -> Except Fault Int64}
    (isBinary : binary? kind = some operation) :
    kind.pushes = 1 := by
  cases kind <;> simp_all [binary?, Kind.pushes]

end Arithmetic

namespace Effect

/-- A computed value takes the place of the operands, or there were enough of them. -/
theorem keepsTo_pushResult
    {kind : Kind}
    {machine left : Machine}
    (operands : List Int64)
    (takes : kind.pops? = some operands.length)
    (leaves : kind.pushes = 1)
    (stack_eq : machine.stack.toList = left.stack.toList ++ operands)
    {result : Except Fault Int64}
    (computed : result ≠ .error .stackUnderflow) :
    Action.KeepsTo kind machine (pushResult left result) := by
  have reshapes : ∀ value, kind.Reshapes machine.stack (left.stack.push value) := fun value =>
    .of_append left.stack.toList operands [value] takes leaves stack_eq (by simp)
  have enough : ¬ kind.Lacks machine.stack := (reshapes 0).not_lacks
  cases result with
  | error fault =>
    refine Action.keepsTo_error enough ?_ left
    rintro rfl
    exact computed rfl
  | ok value =>
    cases checked : left.width.check value with
    | ok accepted =>
      simp only [pushResult, checked]
      exact reshapes value
    | error excess =>
      simp only [pushResult, checked]
      exact Action.keepsTo_error enough (by simp) left

/-- Every effect keeps to the numbers of its kind. -/
theorem keepsTo_apply
    {instruction : Instruction}
    (uncontrolled : instruction.kind.isControl = false)
    (machine : Machine) :
    Action.KeepsTo instruction.kind machine (apply instruction machine) := by
  cases family instruction.kind with
  | push isPush =>
    have takes : instruction.kind.pops? = some 0 := by rw [isPush]; rfl
    have reshapes : instruction.kind.Reshapes machine.stack
        (machine.stack.push instruction.value) := .push takes (by rw [isPush]; rfl) _ _
    rw [apply_push _ isPush]
    cases machine.width.check instruction.value with
    | ok accepted => exact reshapes
    | error excess => exact Action.keepsTo_error reshapes.not_lacks (by simp) _
  | pop isPop =>
    have takes : instruction.kind.pops? = some 1 := by rw [isPop]; rfl
    rw [apply_pop _ isPop]
    cases popped : machine.stack.pop? with
    | none => exact Action.keepsTo_underflow (Kind.lacks_of_pop?_eq_none takes popped) _
    | some result =>
      refine .of_append result.2.toList [result.1] [] takes (by rw [isPop]; rfl) ?_ (by simp)
      rw [Stack.eq_push_of_pop?_eq_some popped, Stack.toList_push]
  | peek isPeek =>
    have takes : instruction.kind.pops? = some 1 := by rw [isPeek]; rfl
    rw [apply_peek _ isPeek]
    cases peeked : machine.stack.peek? with
    | none => exact Action.keepsTo_underflow (Kind.lacks_of_peek?_eq_none takes peeked) _
    | some value => exact .peek takes (by rw [isPeek]; rfl) peeked
  | clear isClear =>
    rw [apply_clear _ isClear, isClear]
    exact ⟨fun _ => rfl, fun taken takes => by simp [Kind.pops?] at takes⟩
  | nonOp isNonOp =>
    rw [apply_nonOp _ isNonOp]
    exact .refl (by rw [isNonOp]; rfl) (by rw [isNonOp]; rfl) _
  | chr isChr =>
    have takes : instruction.kind.pops? = some 1 := by rw [isChr]; rfl
    rw [apply_chr _ isChr]
    cases peeked : machine.stack.peek? with
    | none => exact Action.keepsTo_underflow (Kind.lacks_of_peek?_eq_none takes peeked) _
    | some value =>
      dsimp only
      cases character? value with
      | none => exact Action.keepsTo_error (Kind.not_lacks_of_peek? takes peeked) (by simp) _
      | some c => exact .peek takes (by rw [isChr]; rfl) peeked
  | copy isCopy =>
    have takes : instruction.kind.pops? = some 1 := by rw [isCopy]; rfl
    rw [apply_copy _ isCopy]
    cases peeked : machine.stack.peek? with
    | none => exact Action.keepsTo_underflow (Kind.lacks_of_peek?_eq_none takes peeked) _
    | some value =>
      obtain ⟨below, stack_eq⟩ := Stack.exists_push_of_peek? peeked
      exact .of_append below.toList [value] [value, value] takes (by rw [isCopy]; rfl)
        (by simp [stack_eq]) (by simp [stack_eq])
  | toText isToText =>
    have takes : instruction.kind.pops? = some 0 := by rw [isToText]; rfl
    have reshapes : instruction.kind.Reshapes machine.stack machine.stack :=
      .refl takes (by rw [isToText]; rfl) _
    rw [apply_toText _ isToText]
    cases read : characters machine.stack.toList with
    | ok text => exact reshapes
    | error fault =>
      obtain ⟨value, depth, rfl⟩ := Utf32.exists_of_characters_eq_error read
      exact Action.keepsTo_error reshapes.not_lacks (by simp) _
  | unary operation isUnary =>
    have takes := Arithmetic.pops?_of_unary? isUnary
    rw [apply_unary _ isUnary]
    cases popped : machine.stack.pop? with
    | none => exact Action.keepsTo_underflow (Kind.lacks_of_pop?_eq_none takes popped) _
    | some result =>
      refine keepsTo_pushResult [result.1] takes
        (Arithmetic.pushes_of_unary? isUnary) ?_ (Arithmetic.unary?_ne_stackUnderflow isUnary _)
      rw [Stack.eq_push_of_pop?_eq_some popped, Stack.toList_push]
  | binary operation isBinary =>
    have takes := Arithmetic.pops?_of_binary? isBinary
    have lacks : ∀ {values : List Int64}, machine.stack.topDown = values ->
        values.length < 2 -> instruction.kind.Lacks machine.stack := by
      rintro values rfl few
      exact (Kind.lacks_iff takes _).mpr few
    rw [apply_binary _ isBinary]
    rcases operands : machine.stack.topDown with _ | ⟨b, _ | ⟨a, below⟩⟩
    · exact Action.keepsTo_underflow (lacks operands (by simp)) _
    · exact Action.keepsTo_underflow (lacks operands (by simp)) _
    · exact keepsTo_pushResult [a, b] takes
        (Arithmetic.pushes_of_binary? isBinary) (by simp [Stack.toList, operands])
        (Arithmetic.binary?_ne_stackUnderflow isBinary a b)
  | other isOther =>
    rcases isOther with isControl | ⟨code, isUndefined⟩
    · simp [isControl] at uncontrolled
    · have takes : instruction.kind.pops? = some 0 := by rw [isUndefined]; rfl
      rw [apply_other _ (.inr ⟨code, isUndefined⟩)]
      exact Action.keepsTo_error (by simp [Kind.lacks_iff takes]) (by simp) _

end Effect

/-! ## Steps -/

namespace Engine

theorem keepsTo_plainAction
    {instruction : Instruction}
    (isPlain : instruction.kind.isPlain)
    (machine : Machine) :
    Action.KeepsTo instruction.kind machine (plainAction instruction machine) := by
  by_cases isSave : instruction.kind = .save
  · have takes : instruction.kind.pops? = some 1 := by rw [isSave]; rfl
    rw [plainAction_save isSave]
    cases peeked : machine.stack.peek? with
    | none => exact Action.keepsTo_underflow (Kind.lacks_of_peek?_eq_none takes peeked) _
    | some value => exact .peek takes (by rw [isSave]; rfl) peeked
  by_cases isLoad : instruction.kind = .load
  · have takes : instruction.kind.pops? = some 0 := by rw [isLoad]; rfl
    rw [plainAction_load isLoad]
    cases machine.register with
    | none => exact Action.keepsTo_error (by simp [Kind.lacks_iff takes]) (by simp) _
    | some value => exact .push takes (by rw [isLoad]; rfl) _ value
  rw [plainAction_effect isSave isLoad]
  refine Effect.keepsTo_apply ?_ machine
  cases kind : instruction.kind <;> simp_all [Kind.isPlain, Kind.isControl, Kind.classOf]

/-- Whether an instruction is a conditional jump that finds no mark. -/
def State.LacksMark (state : State) (instruction : Instruction) : Prop :=
  instruction.kind = .jumpIf ∧ state.machine.returns = .empty

/-- What the numbers of its kind promise of an instruction that runs. -/
structure KeepsEffect
    (state : State)
    (instruction : Instruction)
    (after : State)
    (failure : Option Failure) : Prop where
  /-- Where it succeeds, it replaces what its kind takes. -/
  reshapes : failure = none ->
    instruction.kind.Reshapes state.machine.stack after.machine.stack
  /-- The clearing of the stack does not fail. -/
  clears : instruction.kind = .clear -> failure = none
  /-- It fails for want of values exactly if there are too few, unless it is a mark
  that is missed. -/
  underflow : failure.map Failure.fault = some .stackUnderflow ↔
    ¬ state.LacksMark instruction ∧ instruction.kind.Lacks state.machine.stack
  /-- A mark that is missed is the cause of the failure. -/
  markMissing : state.LacksMark instruction ->
    failure = some (state.failure instruction (.emptyControlStack .conditionalMark))

section Steps

variable {sink : Sink} {program : Program} {state after : State} {instruction : Instruction}
variable {failure : Option Failure}

theorem Memory.perform_clear
    (isClear : instruction.kind = .clear)
    (memory : Memory) :
    memory.perform sink instruction = ({ memory with stack := .empty }, none) := by
  rw [perform, plainAction_effect (by simp [isClear]) (by simp [isClear]),
    Effect.apply_clear _ isClear]
  rfl

/-- A plain instruction keeps to the numbers of its kind.  A text that the sink
refuses is no want of values. -/
theorem Memory.perform_keepsTo
    (isPlain : instruction.kind.isPlain)
    {memory left : Memory}
    {fault : Option Fault}
    (performed : memory.perform sink instruction = (left, fault)) :
    (fault = none -> instruction.kind.Reshapes memory.stack left.stack) ∧
      (fault = some .stackUnderflow ↔ instruction.kind.Lacks memory.stack) := by
  have keeps := keepsTo_plainAction isPlain (memory.machine .empty)
  rw [perform] at performed
  cases acted : plainAction instruction (memory.machine .empty) with
  | error cause machine =>
    rw [acted] at keeps
    simp only [acted, Prod.mk.injEq] at performed
    obtain ⟨rfl, rfl⟩ := performed
    refine ⟨by simp, ?_⟩
    rw [Option.some.injEq]
    exact keeps
  | ok yielded machine =>
    rw [acted] at keeps
    have reshapes : instruction.kind.Reshapes memory.stack machine.stack := keeps
    have enough := reshapes.not_lacks
    cases yielded with
    | none =>
      simp only [acted, Prod.mk.injEq] at performed
      obtain ⟨rfl, rfl⟩ := performed
      exact ⟨fun _ => reshapes, by simp [enough]⟩
    | some piece =>
      cases accepted : sink.accepts memory.offered piece with
      | true =>
        simp only [acted, accepted, if_true, Prod.mk.injEq] at performed
        obtain ⟨rfl, rfl⟩ := performed
        exact ⟨fun _ => reshapes, by simp [enough]⟩
      | false =>
        simp only [acted, accepted, Bool.false_eq_true, if_false, Prod.mk.injEq] at performed
        obtain ⟨rfl, rfl⟩ := performed
        exact ⟨by simp, by simp [enough]⟩

theorem State.stack_closeBlock (state : State) :
    state.closeBlock.machine.stack = state.machine.stack := by
  unfold closeBlock
  split
  · rfl
  · dsimp only
    split <;> rfl

/-- Four kinds that steer the run have nothing to do with values. -/
theorem keepsEffect_of_valueless
    (valueless : instruction.kind ∈ [.elseOpen, .endif, .mark, .jump])
    (stack_eq : after.machine.stack = state.machine.stack)
    (enough : failure.map Failure.fault ≠ some .stackUnderflow) :
    KeepsEffect state instruction after failure := by
  have numbers : ∀ kind ∈ [Kind.elseOpen, .endif, .mark, .jump],
      kind.pops? = some 0 ∧ kind.pushes = 0 ∧ kind ≠ .clear ∧ kind ≠ .jumpIf := by decide
  obtain ⟨takes, leaves, notClear, notJumpIf⟩ := numbers _ valueless
  refine ⟨fun _ => stack_eq ▸ .refl takes leaves _, fun isClear => absurd isClear notClear, ?_,
    fun lacksMark => absurd lacksMark.1 notJumpIf⟩
  simp [enough, Kind.lacks_iff takes]

/-- Two kinds look at the top value, and it is there. -/
theorem keepsEffect_of_peek?
    (looks : instruction.kind = .ifOpen ∨ instruction.kind = .jumpIf)
    (marked : ¬ state.LacksMark instruction)
    {top : Int64}
    (peeked : state.machine.stack.peek? = some top)
    (stack_eq : after.machine.stack = state.machine.stack) :
    KeepsEffect state instruction after none := by
  have takes : instruction.kind.pops? = some 1 := by rcases looks with is | is <;> rw [is] <;> rfl
  have leaves : instruction.kind.pushes = 1 := by rcases looks with is | is <;> rw [is] <;> rfl
  refine ⟨fun _ => ?_, fun _ => rfl, ?_, fun lacksMark => absurd lacksMark marked⟩
  · rw [stack_eq]
    exact .peek takes leaves peeked
  · simp [Kind.not_lacks_of_peek? takes peeked]

/-- Or it is not there. -/
theorem keepsEffect_of_peek?_eq_none
    (looks : instruction.kind = .ifOpen ∨ instruction.kind = .jumpIf)
    (marked : ¬ state.LacksMark instruction)
    (empty : state.machine.stack.peek? = none) :
    KeepsEffect state instruction after
      (some (state.failure instruction .stackUnderflow)) := by
  have takes : instruction.kind.pops? = some 1 := by rcases looks with is | is <;> rw [is] <;> rfl
  refine ⟨by simp, ?_, ?_, fun lacksMark => absurd lacksMark marked⟩
  · intro isClear
    simp [isClear] at looks
  · simp [State.failure, marked, Kind.lacks_of_peek?_eq_none takes empty]

theorem State.not_lacksMark_of_pop?
    {popped : Nat × Stack Nat}
    (marks : state.machine.returns.pop? = some popped) :
    ¬ state.LacksMark instruction := by
  rintro ⟨-, empty⟩
  rw [(Stack.pop?_eq_none_iff _).mpr empty] at marks
  cases marks

/-- Every instruction keeps to the numbers of its kind. -/
theorem Performs.keepsEffect
    (performs : Performs sink program state instruction after failure) :
    KeepsEffect state instruction after failure := by
  cases performs with
  | @plain memory fault isPlain performed =>
    obtain ⟨reshapes, underflow⟩ := Memory.perform_keepsTo isPlain performed
    have marked : ¬ state.LacksMark instruction := by
      rintro ⟨isJumpIf, -⟩
      simp [isJumpIf, Kind.isPlain] at isPlain
    refine ⟨?_, ?_, ?_, fun lacksMark => absurd lacksMark marked⟩
    · intro unfailed
      exact reshapes (Option.map_eq_none_iff.mp unfailed)
    · intro isClear
      rw [Memory.perform_clear isClear] at performed
      cases performed
      rfl
    · rw [Option.map_map]
      have causes : Failure.fault ∘ state.failure instruction = id := rfl
      rw [causes, Option.map_id, id, underflow]
      simp only [marked, not_false_eq_true, true_and]
      exact Iff.rfl
  | ifOpen isIf peeked =>
    exact keepsEffect_of_peek? (.inl isIf) (by simp [State.LacksMark, isIf]) peeked rfl
  | ifUnderflow isIf empty =>
    exact keepsEffect_of_peek?_eq_none (.inl isIf) (by simp [State.LacksMark, isIf]) empty
  | elseOpen isElse popped =>
    exact keepsEffect_of_valueless (by simp [isElse]) rfl (by simp)
  | elseMissing isElse empty =>
    exact keepsEffect_of_valueless (by simp [isElse]) rfl (by simp [State.failure])
  | close isEndif nested =>
    exact keepsEffect_of_valueless (by simp [isEndif]) (State.stack_closeBlock _) (by simp)
  | stop isEndif outside =>
    exact keepsEffect_of_valueless (by simp [isEndif]) rfl (by simp)
  | mark isMark => exact keepsEffect_of_valueless (by simp [isMark]) rfl (by simp)
  | jump isJump popped => exact keepsEffect_of_valueless (by simp [isJump]) rfl (by simp)
  | jumpMissing isJump empty =>
    exact keepsEffect_of_valueless (by simp [isJump]) rfl (by simp [State.failure])
  | jumpIfTaken isJumpIf popped peeked truthy =>
    exact keepsEffect_of_peek? (.inr isJumpIf) (State.not_lacksMark_of_pop? popped) peeked rfl
  | jumpIfPassed isJumpIf popped peeked falsy =>
    exact keepsEffect_of_peek? (.inr isJumpIf) (State.not_lacksMark_of_pop? popped) peeked rfl
  | jumpIfUnderflow isJumpIf popped empty =>
    exact keepsEffect_of_peek?_eq_none (.inr isJumpIf) (State.not_lacksMark_of_pop? popped) empty
  | jumpIfMissing isJumpIf empty =>
    have lacksMark : state.LacksMark instruction :=
      ⟨isJumpIf, (Stack.pop?_eq_none_iff _).mp empty⟩
    refine ⟨by simp, ?_, ?_, fun _ => rfl⟩
    · intro isClear
      simp [isClear] at isJumpIf
    · simp [State.failure, lacksMark]

end Steps

/-- What a kind says of its stack effect holds wherever an instruction of the kind
runs, the clearing of the stack apart: it fails for want of values exactly if the
stack is lower than what the kind takes, and where it succeeds the height changes by
what the kind takes and leaves, and the values below are untouched.  Only a
conditional jump without a mark fails for want of the mark instead, whatever the
stack.  The clearing of the stack always succeeds and leaves it empty. -/
theorem instructions_keep_documented_effects
    (sink : Sink)
    (program : Program)
    (state : State)
    (instruction : Instruction)
    (found : program[state.index]? = some instruction)
    (opened : state.gate = true) :
    ∃ after failure, state.step? sink program = some (after, failure) ∧
      (instruction.kind = .clear -> failure = none ∧ after.machine.stack = .empty) ∧
      (instruction.kind ≠ .clear -> ∃ taken, instruction.kind.pops? = some taken ∧
        (instruction.kind = .jumpIf ∧ state.machine.returns = .empty ->
          failure = some (state.failure instruction (.emptyControlStack .conditionalMark))) ∧
        (¬ (instruction.kind = .jumpIf ∧ state.machine.returns = .empty) ->
          (failure.map Failure.fault = some .stackUnderflow ↔
            state.machine.stack.size < taken)) ∧
        (failure = none ->
          taken ≤ state.machine.stack.size ∧
          after.machine.stack.size =
            state.machine.stack.size - taken + instruction.kind.pushes ∧
          after.machine.stack.toList.take (state.machine.stack.size - taken) =
            state.machine.stack.toList.take (state.machine.stack.size - taken))) := by
  have performs := performs_perform sink program state instruction
  have keeps := performs.keepsEffect
  refine ⟨_, _, step?_eq_some_iff.mpr (.perform found opened performs), ?_, ?_⟩
  · intro isClear
    have unfailed := keeps.clears isClear
    exact ⟨unfailed, (keeps.reshapes unfailed).cleared (by rw [isClear]; rfl)⟩
  · intro notClear
    obtain ⟨taken, takes⟩ := Kind.exists_pops? notClear
    refine ⟨taken, takes, keeps.markMissing, ?_, ?_⟩
    · intro marked
      rw [keeps.underflow, Kind.lacks_iff takes]
      exact and_iff_right marked
    · intro unfailed
      exact (keeps.reshapes unfailed).height takes

/-- A state behind a mark, with the given values from the top down. -/
def behindMark (values : List Int64) : State where
  machine :=
    { Machine.new .standard with stack := { topDown := values }, returns := { topDown := [0] } }
  frames := []
  index := 1
  steps := 1
  output := ""
  offered := []

/-- A subtraction replaces its two operands by one value.  A conditional jump that has
a mark misses its value. -/
theorem instructions_keep_documented_effects_behindMark :
    (∃ after, (behindMark [3, 5, 7]).step? .unlimited
        [.plain .mark .nowhere, .plain .subtract .nowhere] = some (after, none) ∧
      after.machine.stack.toList = [7, 2] ∧ after.machine.stack.size = 3 - 2 + 1) ∧
    ∃ after failure, (behindMark []).step? .unlimited
        [.plain .mark .nowhere, .plain .jumpIf .nowhere] = some (after, some failure) ∧
      failure.fault = .stackUnderflow := by
  constructor
  · obtain ⟨after, failure, stepped, -, effect⟩ := instructions_keep_documented_effects .unlimited
      [.plain .mark .nowhere, .plain .subtract .nowhere] (behindMark [3, 5, 7])
      (.plain .subtract .nowhere) rfl rfl
    obtain ⟨taken, takes, -, -, height⟩ := effect (by decide)
    cases takes
    cases stepped
    exact ⟨_, rfl, rfl, (height rfl).2.1⟩
  · obtain ⟨after, failure, stepped, -, effect⟩ := instructions_keep_documented_effects .unlimited
      [.plain .mark .nowhere, .plain .jumpIf .nowhere] (behindMark [])
      (.plain .jumpIf .nowhere) rfl rfl
    obtain ⟨taken, takes, -, underflow, -⟩ := effect (by decide)
    cases takes
    obtain ⟨cause, rfl, fault_eq⟩ :=
      Option.map_eq_some_iff.mp ((underflow (by decide)).mpr (by decide))
    exact ⟨after, cause, stepped, fault_eq⟩

end Engine

end GlyphStack
