import GlyphStack.Proofs.Bounds
import GlyphStack.Proofs.Printing
import GlyphStack.Proofs.Utf32

/-!
# How programs fail

The catalogue `Fault.Arises` says which instructions can fail, and with which
causes.  It is complete for programs that were read from a source and run with the
width that they were read with.  Such a program pushes no literal that is out of
bounds, and it has no instruction without an effect.  The values that it computes
with are within the bound of the width, so that a result beyond 64 bits needs a
wide enough width.
-/

namespace GlyphStack

/-- Whether an instruction needs values on the stack. -/
def Kind.takesValues (kind : Kind) : Prop :=
  ∃ count, kind.pops? = some (count + 1)

/-- The causes with which an instruction of a kind can fail. -/
inductive Fault.Arises (width : Width) : Kind -> Fault -> Prop
  /-- Values are missing. -/
  | stackUnderflow {kind : Kind}
      (takes : kind.takesValues) :
      Arises width kind .stackUnderflow
  /-- No condition was closed before. -/
  | outcomeMissing : Arises width .elseOpen (.emptyControlStack .outcome)
  /-- No mark was set before. -/
  | markMissing : Arises width .jump (.emptyControlStack .mark)
  /-- No mark was set before. -/
  | conditionalMarkMissing : Arises width .jumpIf (.emptyControlStack .conditionalMark)
  /-- The divisor is zero. -/
  | divisionByZero {kind : Kind}
      (divides : kind = .divide ∨ kind = .modulo) :
      Arises width kind .divisionByZero
  /-- Nothing was saved before. -/
  | unsetRegister : Arises width .load .unsetRegister
  /-- The top value is no code point. -/
  | invalidCodePoint {value : Int64} : Arises width .chr (.invalidCodePoint value)
  /-- A value is no code point. -/
  | invalidCodePointAt {value : Int64} {depth : Nat} :
      Arises width .toText (.invalidCodePointAt value depth)
  /-- A product of two values of 32 bits may take more than 64. -/
  | productOverflow
      (wide : 4 ≤ width.bytes) :
      Arises width .multiply .integerOverflow
  /-- Other results take more than 64 bits only if the width sets no bound. -/
  | integerOverflow {kind : Kind}
      (computes : kind = .add ∨ kind = .subtract ∨ kind = .divide ∨ kind = .negate)
      (unbounded : 8 ≤ width.bytes) :
      Arises width kind .integerOverflow
  /-- A result is beyond the bound, if there is one. -/
  | overflow {kind : Kind} {excess : Overflow}
      (computes : kind.classOf = .unary ∨ kind.classOf = .binary)
      (bounded : width.bytes < 8) :
      Arises width kind (.overflow excess)

/-! ## Computations -/

section Computations

variable {width : Width} {kind : Kind} {fault : Fault}

/-- Values of a width are within the bound of every wider one. -/
theorem Width.natAbs_le_of_admits
    {value : Int64}
    (admitted : width.admits value)
    {bytes : Nat}
    (narrow : width.bytes ≤ bytes)
    (bounded : bytes < 8) :
    value.toInt.natAbs ≤ 2 ^ (8 * bytes) := by
  have fits := (admits_iff width value).mp admitted (by omega)
  exact fits.trans (Nat.pow_le_pow_right (by decide) (by omega))

/-- A result is refused only if it does not fit 64 bits. -/
theorem Arithmetic.narrow_eq_error
    {result : Int}
    (failed : narrow result = .error fault) :
    fault = .integerOverflow ∧ 2 ^ 63 ≤ result.natAbs := by
  unfold narrow at failed
  split at failed
  · cases failed
  · next beyond =>
    have least : Int64.minValue.toInt = -2 ^ 63 := rfl
    have most : Int64.maxValue.toInt = 2 ^ 63 - 1 := rfl
    rw [least, most] at beyond
    exact ⟨(Except.error.inj failed).symm, by omega⟩

/-- Only a width without a bound admits values of more than 56 bits. -/
theorem Width.unbounded_of_lt_natAbs
    {value : Int64}
    (admitted : width.admits value)
    (large : 2 ^ 56 < value.toInt.natAbs) :
    8 ≤ width.bytes := by
  by_contra bounded
  have small := natAbs_le_of_admits admitted (show width.bytes ≤ 7 by omega) (by decide)
  omega

namespace Arithmetic

theorem floorDiv_eq_error
    {a b : Int64}
    (failed : floorDiv a b = .error fault) :
    fault = .divisionByZero ∨ fault = .integerOverflow ∧ a = Int64.minValue := by
  unfold floorDiv at failed
  split at failed
  · exact .inl (Except.error.inj failed).symm
  · split at failed
    · next least => exact .inr ⟨(Except.error.inj failed).symm, least.1⟩
    · dsimp only at failed
      split at failed <;> cases failed

theorem floorMod_eq_error
    {a b : Int64}
    (failed : floorMod a b = .error fault) :
    fault = .divisionByZero := by
  unfold floorMod at failed
  split at failed
  · exact (Except.error.inj failed).symm
  · dsimp only at failed
    split at failed <;> cases failed

theorem arises_unary
    {operation : Int64 -> Except Fault Int64}
    (isUnary : unary? kind = some operation)
    {a : Int64}
    (admitted : width.admits a)
    (failed : operation a = .error fault) :
    fault.Arises width kind := by
  cases kind with
  | not =>
    obtain rfl := Option.some.inj isUnary
    cases failed
  | negate =>
    obtain rfl := Option.some.inj isUnary
    unfold negate at failed
    split at failed
    · next least =>
      obtain rfl := Except.error.inj failed
      subst least
      exact .integerOverflow (by simp) (Width.unbounded_of_lt_natAbs admitted (by decide))
    · cases failed
  | _ => cases isUnary

theorem arises_binary
    {operation : Int64 -> Int64 -> Except Fault Int64}
    (isBinary : binary? kind = some operation)
    {a b : Int64}
    (firstAdmitted : width.admits a)
    (secondAdmitted : width.admits b)
    (failed : operation a b = .error fault) :
    fault.Arises width kind := by
  -- A sum or a difference of this size has an operand of more than half of it.
  have unbounded_of_sum : 2 ^ 63 ≤ a.toInt.natAbs + b.toInt.natAbs -> 8 ≤ width.bytes := by
    intro large
    rcases Nat.lt_or_ge (2 ^ 56) a.toInt.natAbs with first | first
    · exact Width.unbounded_of_lt_natAbs firstAdmitted first
    · exact Width.unbounded_of_lt_natAbs secondAdmitted (by omega)
  cases kind with
  | add =>
    obtain rfl := Option.some.inj isBinary
    obtain ⟨rfl, large⟩ := narrow_eq_error failed
    exact .integerOverflow (by simp) (unbounded_of_sum (by omega))
  | subtract =>
    obtain rfl := Option.some.inj isBinary
    obtain ⟨rfl, large⟩ := narrow_eq_error failed
    exact .integerOverflow (by simp) (unbounded_of_sum (by omega))
  | multiply =>
    obtain rfl := Option.some.inj isBinary
    obtain ⟨rfl, large⟩ := narrow_eq_error failed
    refine .productOverflow ?_
    by_contra narrow
    have first := Width.natAbs_le_of_admits firstAdmitted (show width.bytes ≤ 3 by omega)
      (by decide)
    have second := Width.natAbs_le_of_admits secondAdmitted (show width.bytes ≤ 3 by omega)
      (by decide)
    have product := Nat.mul_le_mul first second
    rw [Int.natAbs_mul] at large
    omega
  | divide =>
    obtain rfl := Option.some.inj isBinary
    rcases floorDiv_eq_error failed with rfl | ⟨rfl, rfl⟩
    · exact .divisionByZero (.inl rfl)
    · exact .integerOverflow (by simp) (Width.unbounded_of_lt_natAbs firstAdmitted (by decide))
  | modulo =>
    obtain rfl := Option.some.inj isBinary
    obtain rfl := floorMod_eq_error failed
    exact .divisionByZero (.inr rfl)
  | and | or | equality | greaterThan | lessThan =>
    obtain rfl := Option.some.inj isBinary
    cases failed
  | _ => cases isBinary

end Arithmetic

end Computations

/-! ## Instructions -/

section Instructions

variable {width : Width} {machine after : Machine} {instruction : Instruction} {fault : Fault}

theorem Width.bounded_of_check
    {value : Int64}
    {excess : Overflow}
    (refused : width.check value = .error excess) :
    width.bytes < 8 := by
  by_contra unbounded
  have admitted : width.admits value :=
    (admits_iff width value).mpr fun bounded => absurd bounded unbounded
  rw [(check_eq_ok_iff width value).mpr admitted] at refused
  cases refused

namespace Effect

/-- A computed value is not pushed if the computation fails, or the value is beyond
the bound. -/
theorem pushResult_eq_error
    {result : Except Fault Int64}
    (failed : pushResult machine result = .error fault after) :
    result = .error fault ∨
      (∃ excess, fault = .overflow excess) ∧ machine.width.bytes < 8 := by
  cases result with
  | error cause =>
    simp only [pushResult, EStateM.Result.error.injEq] at failed
    exact .inl (congrArg Except.error failed.1)
  | ok value =>
    cases checked : machine.width.check value with
    | ok accepted => simp [pushResult, checked] at failed
    | error excess =>
      simp only [pushResult, checked, EStateM.Result.error.injEq] at failed
      exact .inr ⟨⟨excess, failed.1.symm⟩, Width.bounded_of_check checked⟩

theorem arises_apply_unary
    (bounded : machine.Bounded width)
    {operation : Int64 -> Except Fault Int64}
    (isUnary : Arithmetic.unary? instruction.kind = some operation)
    (failed : apply instruction machine = .error fault after) :
    fault.Arises width instruction.kind := by
  have shape : instruction.kind.classOf = .unary ∧ instruction.kind.pops? = some 1 := by
    cases kind : instruction.kind <;> simp_all [Arithmetic.unary?, Kind.classOf, Kind.pops?]
  rw [apply_unary _ isUnary] at failed
  cases popped : machine.stack.pop? with
  | none =>
    simp only [popped] at failed
    cases failed
    exact .stackUnderflow ⟨0, shape.2⟩
  | some result =>
    simp only [popped] at failed
    rcases pushResult_eq_error failed with computed | ⟨⟨excess, rfl⟩, narrow⟩
    · have onStack : result.1 ∈ machine.stack.topDown := by
        rw [Stack.eq_push_of_pop?_eq_some popped]
        exact List.mem_cons_self
      exact Arithmetic.arises_unary isUnary (bounded.stack _ onStack) computed
    · exact .overflow (.inl shape.1) (bounded.width_eq ▸ narrow)

theorem arises_apply_binary
    (bounded : machine.Bounded width)
    {operation : Int64 -> Int64 -> Except Fault Int64}
    (isBinary : Arithmetic.binary? instruction.kind = some operation)
    (failed : apply instruction machine = .error fault after) :
    fault.Arises width instruction.kind := by
  have shape : instruction.kind.classOf = .binary ∧ instruction.kind.pops? = some 2 := by
    cases kind : instruction.kind <;> simp_all [Arithmetic.binary?, Kind.classOf, Kind.pops?]
  rw [apply_binary _ isBinary] at failed
  rcases values : machine.stack.topDown with _ | ⟨b, _ | ⟨a, below⟩⟩
  · simp only [values] at failed
    cases failed
    exact .stackUnderflow ⟨1, shape.2⟩
  · simp only [values] at failed
    cases failed
    exact .stackUnderflow ⟨1, shape.2⟩
  · simp only [values] at failed
    rcases pushResult_eq_error failed with computed | ⟨⟨excess, rfl⟩, narrow⟩
    · exact Arithmetic.arises_binary isBinary (bounded.stack a (by simp [values]))
        (bounded.stack b (by simp [values])) computed
    · exact .overflow (.inr shape.1) (bounded.width_eq ▸ narrow)

/-- The effects of instructions that can be written fail as the catalogue says. -/
theorem arises_apply
    (bounded : machine.Bounded width)
    (writable : instruction.Writable width)
    (uncontrolled : instruction.kind.isControl = false)
    (failed : apply instruction machine = .error fault after) :
    fault.Arises width instruction.kind := by
  cases family instruction.kind with
  | push isPush =>
    rw [apply_push _ isPush, bounded.width_eq,
      Width.check_of_le (writable.nonneg isPush) (writable.within isPush)] at failed
    cases failed
  | pop isPop =>
    rw [apply_pop _ isPop] at failed
    cases popped : machine.stack.pop? <;> simp only [popped] at failed <;> cases failed
    exact .stackUnderflow ⟨0, by rw [isPop]; rfl⟩
  | peek isPeek =>
    rw [apply_peek _ isPeek] at failed
    cases peeked : machine.stack.peek? <;> simp only [peeked] at failed <;> cases failed
    exact .stackUnderflow ⟨0, by rw [isPeek]; rfl⟩
  | clear isClear =>
    rw [apply_clear _ isClear] at failed
    cases failed
  | nonOp isNonOp =>
    rw [apply_nonOp _ isNonOp] at failed
    cases failed
  | chr isChr =>
    rw [apply_chr _ isChr] at failed
    cases peeked : machine.stack.peek? with
    | none =>
      simp only [peeked] at failed
      cases failed
      exact .stackUnderflow ⟨0, by rw [isChr]; rfl⟩
    | some value =>
      cases found : character? value <;> simp only [peeked, found] at failed <;> cases failed
      rw [isChr]
      exact .invalidCodePoint
  | copy isCopy =>
    rw [apply_copy _ isCopy] at failed
    cases peeked : machine.stack.peek? <;> simp only [peeked] at failed <;> cases failed
    exact .stackUnderflow ⟨0, by rw [isCopy]; rfl⟩
  | toText isToText =>
    rw [apply_toText _ isToText] at failed
    cases read : characters machine.stack.toList <;> simp only [read] at failed <;> cases failed
    obtain ⟨value, depth, rfl⟩ := Utf32.exists_of_characters_eq_error read
    rw [isToText]
    exact .invalidCodePointAt
  | unary operation isUnary => exact arises_apply_unary bounded isUnary failed
  | binary operation isBinary => exact arises_apply_binary bounded isBinary failed
  | other isOther =>
    rcases isOther with isControl | ⟨code, isUndefined⟩
    · rw [uncontrolled] at isControl
      cases isControl
    · have defined := writable.defined
      simp [isUndefined, Kind.all] at defined

end Effect

namespace Engine

/-- So do all plain instructions that can be written. -/
theorem arises_plainAction
    (bounded : machine.Bounded width)
    (writable : instruction.Writable width)
    (isPlain : instruction.kind.isPlain)
    (failed : plainAction instruction machine = .error fault after) :
    fault.Arises width instruction.kind := by
  by_cases isSave : instruction.kind = .save
  · rw [plainAction_save isSave] at failed
    cases peeked : machine.stack.peek? <;> simp only [peeked] at failed <;> cases failed
    exact .stackUnderflow ⟨0, by rw [isSave]; rfl⟩
  by_cases isLoad : instruction.kind = .load
  · rw [plainAction_load isLoad] at failed
    cases held : machine.register <;> simp only [held] at failed <;> cases failed
    rw [isLoad]
    exact .unsetRegister
  rw [plainAction_effect isSave isLoad] at failed
  have uncontrolled : instruction.kind.isControl = false := by
    cases kind : instruction.kind <;> simp_all [Kind.isPlain, Kind.isControl, Kind.classOf]
  exact Effect.arises_apply bounded writable uncontrolled failed

/-- A sink that takes every text. -/
def Sink.Unfailing (sink : Sink) : Prop :=
  ∀ offered piece, sink.accepts offered piece = true

theorem Sink.unfailing_unlimited : unlimited.Unfailing :=
  fun _ _ => rfl

theorem arises_perform
    {sink : Sink}
    (unfailing : sink.Unfailing)
    {memory left : Memory}
    (bounded : (memory.machine .empty).Bounded width)
    (writable : instruction.Writable width)
    (isPlain : instruction.kind.isPlain)
    (failed : memory.perform sink instruction = (left, some fault)) :
    fault.Arises width instruction.kind := by
  unfold Memory.perform at failed
  cases acted : plainAction instruction (memory.machine .empty) with
  | error cause machine =>
    simp only [acted, Prod.mk.injEq, Option.some.injEq] at failed
    obtain ⟨-, rfl⟩ := failed
    exact arises_plainAction bounded writable isPlain acted
  | ok yielded machine =>
    cases yielded with
    | none => simp [acted] at failed
    | some piece => simp [acted, unfailing memory.offered piece] at failed

end Engine

end Instructions

/-! ## Runs -/

namespace Engine

variable {width : Width} {sink : Sink} {program : Program}

/-- A step of a program that can be written fails as the catalogue says. -/
theorem Transition.arises
    {state after : State}
    {failure : Failure}
    (transition : Transition sink program state after (some failure))
    (unfailing : sink.Unfailing)
    (writable : ∀ instruction ∈ program, instruction.Writable width)
    (bounded : state.machine.Bounded width) :
    failure.fault.Arises width failure.instruction.kind := by
  generalize failed : some failure = result at transition
  cases transition with
  | skip found closed => cases failed
  | @perform instruction after result found opened performs =>
    cases performs with
    | @plain memory fault isPlain performed =>
      cases fault with
      | none => cases failed
      | some fault =>
        obtain rfl := Option.some.inj failed
        exact arises_perform unfailing (bounded.of_values_eq rfl rfl rfl)
          (writable instruction (List.mem_of_getElem? found)) isPlain performed
    | ifUnderflow isIf empty =>
      obtain rfl := Option.some.inj failed
      exact .stackUnderflow ⟨0, by rw [State.failure, isIf]; rfl⟩
    | elseMissing isElse empty =>
      obtain rfl := Option.some.inj failed
      rw [State.failure, isElse]
      exact .outcomeMissing
    | jumpMissing isJump empty =>
      obtain rfl := Option.some.inj failed
      rw [State.failure, isJump]
      exact .markMissing
    | jumpIfMissing isJumpIf empty =>
      obtain rfl := Option.some.inj failed
      rw [State.failure, isJumpIf]
      exact .conditionalMarkMissing
    | jumpIfUnderflow isJumpIf popped empty =>
      obtain rfl := Option.some.inj failed
      exact .stackUnderflow ⟨0, by rw [State.failure, isJumpIf]; rfl⟩
    | _ => cases failed

/-- So does every run. -/
theorem Reaches.arises
    {state : State}
    {failure : Failure}
    (reached : Reaches sink program (.initial width) state (some failure))
    (unfailing : sink.Unfailing)
    (writable : ∀ instruction ∈ program, instruction.Writable width) :
    failure.fault.Arises width failure.instruction.kind := by
  generalize failed : some failure = result at reached
  cases reached with
  | refl => cases failed
  | step before stepped =>
    subst failed
    exact (step?_eq_some_iff.mp stepped).arises unfailing writable before.bounded

end Engine

namespace Fault.Arises

variable {width : Width} {kind : Kind} {fault : Fault}

/-- Five kinds are not in the catalogue. -/
theorem kind_not_mem
    (arises : fault.Arises width kind) :
    kind ∉ [.push, .nonOp, .clear, .mark, .endif] := by
  intro listed
  cases arises with
  | stackUnderflow takes =>
    obtain ⟨count, taken⟩ := takes
    have noneTaken : ∀ kind ∈ [Kind.push, .nonOp, .clear, .mark, .endif],
        kind.pops? = some 0 ∨ kind.pops? = none := by decide
    rcases noneTaken kind listed with pops_eq | pops_eq <;> simp [pops_eq] at taken
  | divisionByZero divides => rcases divides with rfl | rfl <;> simp at listed
  | integerOverflow computes unbounded =>
    rcases computes with rfl | rfl | rfl | rfl <;> simp at listed
  | overflow computes bounded =>
    have otherClass : ∀ kind ∈ [Kind.push, .nonOp, .clear, .mark, .endif],
        ¬ (kind.classOf = .unary ∨ kind.classOf = .binary) := by decide
    exact otherClass kind listed computes
  | _ => simp at listed

/-- Two causes are not in the catalogue either. -/
theorem fault_ne
    (arises : fault.Arises width kind) :
    fault ≠ .outputFull ∧ ∀ other, fault ≠ .noEffect other := by
  cases arises <;> simp

theorem wide_of_integerOverflow
    (arises : Arises width kind .integerOverflow) :
    4 ≤ width.bytes ∧ (kind = .divide ∨ kind = .negate -> 8 ≤ width.bytes) := by
  cases arises with
  | productOverflow wide => exact ⟨wide, by simp⟩
  | integerOverflow computes unbounded => exact ⟨by omega, fun _ => unbounded⟩

end Fault.Arises

namespace Engine

/-- How a program fails that was read with the width it runs with, if everything it
prints is taken.  Each failure is in the catalogue: literals, separators, the
clearing of the stack, marks and the ends of blocks never fail, no instruction lacks
an effect, and a result beyond 64 bits needs four bytes, or eight if it is a quotient
or a negation.  Wherever the run stands, the stack as text either has a value that
is no code point, or is what its packed values decode to, which does not fail. -/
theorem read_program_fails_as_catalogued
    (bytes : Int)
    (input : List UInt8)
    {program : Program}
    (accepted : Program.ofSource (.ofInt bytes) (Glyph.decode input) = .ok program)
    {sink : Sink}
    (unfailing : sink.Unfailing)
    {decode? : List UInt8 -> Option (List Char)}
    (honors : Utf32.Honors decode?) :
    (∀ state failure,
      Reaches sink program (.initial (.ofInt bytes)) state (some failure) ->
      failure.fault.Arises (.ofInt bytes) failure.instruction.kind ∧
      failure.instruction.kind ∉ [.push, .nonOp, .clear, .mark, .endif] ∧
      (failure.fault ≠ .outputFull ∧ ∀ kind, failure.fault ≠ .noEffect kind) ∧
      (failure.fault = .integerOverflow -> 4 ≤ Width.effective bytes ∧
        (failure.instruction.kind = .divide ∨ failure.instruction.kind = .negate ->
          8 ≤ Width.effective bytes))) ∧
    (∀ state, Reaches sink program (.initial (.ofInt bytes)) state none ->
      (∃ value depth, Effect.toText state.machine =
        .error (.invalidCodePointAt value depth) state.machine) ∨
      ∃ text, decode? (Utf32.pack state.machine.stack.toList) = some text ∧
        Effect.toText state.machine = .ok (String.ofList text) state.machine) := by
  refine ⟨fun state failure reached => ?_, fun state _ => honors.toText_cases state.machine⟩
  have arises := reached.arises unfailing (Program.writable_of_ofSource accepted).1
  refine ⟨arises, arises.kind_not_mem, arises.fault_ne, fun isOverflow => ?_⟩
  rw [isOverflow] at arises
  rw [← Width.bytes_ofInt]
  exact arises.wide_of_integerOverflow

/-- With the standard width of four bytes a product of two literals at the bound is
beyond 64 bits.  Before them the stack is a text behind a byte-order mark. -/
theorem read_program_fails_as_catalogued_product :
    ∃ program before after failure,
      Program.ofSource (.ofInt 0)
        (Glyph.decode (Text.utf8 "65279 104 4294967296 4294967296*".toList)) = .ok program ∧
      Reaches .unlimited program (.initial (.ofInt 0)) before none ∧
      Utf32.strict? (Utf32.pack before.machine.stack.toList) = some ['h'] ∧
      Reaches .unlimited program (.initial (.ofInt 0)) after (some failure) ∧
      failure.instruction.kind = .multiply ∧
      failure.fault = .integerOverflow ∧
      4 ≤ Width.effective 0 := by
  let program : Program := [
    { kind := .push, value := 65279, position := .start },
    { kind := .push, value := 104, position := { offset := 6, line := 1, column := 7 } },
    { kind := .push, value := 4294967296, position := { offset := 10, line := 1, column := 11 } },
    { kind := .push, value := 4294967296, position := { offset := 21, line := 1, column := 22 } },
    { kind := .multiply, value := 0, position := { offset := 31, line := 1, column := 32 } }]
  have accepted : Program.ofSource (.ofInt 0)
      (Glyph.decode (Text.utf8 "65279 104 4294967296 4294967296*".toList)) = .ok program := by
    rw [Glyph.decode_utf8]
    decide +kernel
  have read : Reaches .unlimited program (.initial (.ofInt 0)) _ none :=
    .step (.step .refl rfl) rfl
  have failed : Reaches .unlimited program (.initial (.ofInt 0)) _ (some _) :=
    .step (.step (.step read rfl) rfl) rfl
  obtain ⟨failures, texts⟩ := read_program_fails_as_catalogued 0 _ accepted
    Sink.unfailing_unlimited Utf32.honors_strict?
  refine ⟨program, _, _, _, accepted, read, ?_, failed, rfl, rfl,
    ((failures _ _ failed).2.2.2 rfl).1⟩
  rcases texts _ read with ⟨value, depth, noText⟩ | ⟨text, decoded, yielded⟩
  · cases noText
  · have yielded_eq : String.ofList ['h'] = String.ofList text :=
      (EStateM.Result.ok.inj yielded).1
    rw [decoded, ← String.ofList_inj.mp yielded_eq]

end Engine

end GlyphStack
