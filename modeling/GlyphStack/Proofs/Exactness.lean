import GlyphStack.Proofs.Aborts
import GlyphStack.Proofs.Bitwise

/-!
# Exact results

Values are machine words, but no computation wraps around.  Every kind that computes
has an exact result, an integer without bounds.  It is what an instruction of the kind
pushes; and where it cannot be pushed, the instruction fails, with the cause that says
why.

The quotient and the remainder are the two that need an argument.  Machine division
rounds toward zero and is then corrected, and neither the correction nor the division
itself leaves the words, except for the least value divided by minus one.
-/

namespace GlyphStack

namespace Kind

/-- Whether a kind divides. -/
def divides (kind : Kind) : Prop :=
  kind = .divide ∨ kind = .modulo

instance (kind : Kind) : Decidable kind.divides :=
  inferInstanceAs (Decidable (_ ∨ _))

/-- The exact result of a kind that computes with one value. -/
def unaryResult? (kind : Kind) (a : Int) : Option Int :=
  match kind with
  | .not => some (if a = 0 then 1 else 0)
  | .negate => some (-a)
  | _ => none

/-- The exact result of a kind that computes with two values.  A quotient is rounded
down, and the bits of a negative integer are those of its two's complement. -/
def binaryResult? (kind : Kind) (a b : Int) : Option Int :=
  match kind with
  | .add => some (a + b)
  | .subtract => some (a - b)
  | .multiply => some (a * b)
  | .divide => some (a.fdiv b)
  | .modulo => some (a - b * a.fdiv b)
  | .and => some (a.land b)
  | .or => some (a.lor b)
  | .equality => some (if a = b then 1 else 0)
  | .greaterThan => some (if a > b then 1 else 0)
  | .lessThan => some (if a < b then 1 else 0)
  | _ => none

end Kind

namespace Arithmetic

/-- Whether an integer is a value. -/
def Fits (result : Int) : Prop :=
  -2 ^ 63 ≤ result ∧ result < 2 ^ 63

instance (result : Int) : Decidable (Fits result) :=
  inferInstanceAs (Decidable (_ ∧ _))

theorem fits_toInt (value : Int64) : Fits value.toInt :=
  ⟨value.le_toInt, value.toInt_lt⟩

theorem narrow_of_fits
    {result : Int}
    (fits : Fits result) :
    narrow result = .ok (Int64.ofInt result) :=
  if_pos ⟨fits.1, Int.le_sub_one_of_lt fits.2⟩

theorem narrow_of_not_fits
    {result : Int}
    (beyond : ¬ Fits result) :
    narrow result = .error .integerOverflow :=
  if_neg fun within => beyond ⟨within.1, Int.lt_of_le_sub_one within.2⟩

theorem ofInt_eq_iff
    {result : Int}
    (fits : Fits result)
    (value : Int64) :
    Int64.ofInt result = value ↔ value.toInt = result := by
  rw [← Int64.toInt_inj, Int64.toInt_ofInt_of_le fits.1 fits.2, eq_comm]

theorem narrow_toInt (value : Int64) : narrow value.toInt = .ok value := by
  rw [narrow_of_fits (fits_toInt value), Int64.ofInt_toInt]

/-! ## Rounding down -/

section Rounding

variable {a b : Int}

/-- What is left over when rounding toward zero is smaller than the divisor and has
the sign of the dividend. -/
theorem tmod_bounds
    (a : Int)
    (nonzero : b ≠ 0) :
    (a.tmod b).natAbs < b.natAbs ∧ (0 ≤ a -> 0 ≤ a.tmod b) ∧ (a < 0 -> a.tmod b ≤ 0) := by
  refine ⟨?_, fun nonneg => Int.tmod_nonneg b nonneg, fun negative => ?_⟩
  · rw [Int.natAbs_tmod]
    exact Nat.mod_lt _ (Int.natAbs_pos.mpr nonzero)
  · have mirrored := Int.tmod_nonneg b (show 0 ≤ -a by omega)
    rw [Int.neg_tmod] at mirrored
    omega

/-- Rounding down differs from rounding toward zero if something is left over and the
signs differ. -/
theorem fdiv_fmod_of_signs_differ
    (nonzero : b ≠ 0)
    (remains : a.tmod b ≠ 0)
    (differ : ¬ (a < 0 ↔ b < 0)) :
    a.fdiv b = a.tdiv b - 1 ∧ a.fmod b = a.tmod b + b := by
  obtain ⟨small, nonneg, nonpos⟩ := tmod_bounds a nonzero
  have exact := Int.mul_tdiv_add_tmod a b
  have shifted : a.tmod b + b + b * (a.tdiv b - 1) = a := by
    rw [Int.mul_sub]
    omega
  rcases Int.lt_or_gt_of_ne nonzero with negative | positive
  · exact (Int.fdiv_fmod_unique' negative).mpr ⟨shifted, by omega, by omega⟩
  · exact (Int.fdiv_fmod_unique positive).mpr ⟨shifted, by omega, by omega⟩

/-- Otherwise both are the same. -/
theorem fdiv_fmod_of_signs_agree
    (nonzero : b ≠ 0)
    (agree : a.tmod b = 0 ∨ (a < 0 ↔ b < 0)) :
    a.fdiv b = a.tdiv b ∧ a.fmod b = a.tmod b := by
  obtain ⟨small, nonneg, nonpos⟩ := tmod_bounds a nonzero
  have exact := Int.mul_tdiv_add_tmod a b
  rcases Int.lt_or_gt_of_ne nonzero with negative | positive
  · exact (Int.fdiv_fmod_unique' negative).mpr ⟨by omega, by omega, by omega⟩
  · exact (Int.fdiv_fmod_unique positive).mpr ⟨by omega, by omega, by omega⟩

/-- A remainder lies between zero and the divisor. -/
theorem fmod_bounds
    (a b : Int) :
    (0 < b -> 0 ≤ a.fmod b ∧ a.fmod b < b) ∧ (b < 0 -> b < a.fmod b ∧ a.fmod b ≤ 0) :=
  ⟨fun positive => ((Int.fdiv_fmod_unique (a := a) positive).mp ⟨rfl, rfl⟩).2,
    fun negative => ((Int.fdiv_fmod_unique' (a := a) negative).mp ⟨rfl, rfl⟩).2⟩

/-- Only one quotient of values is not a value. -/
theorem fits_fdiv_iff
    (fits : Fits a)
    (nonzero : b ≠ 0) :
    Fits (a.fdiv b) ↔ ¬ (a = -2 ^ 63 ∧ b = -1) := by
  obtain ⟨least, most⟩ := fits
  have smaller := Int.natAbs_fdiv_le_natAbs a b
  constructor
  · rintro fits ⟨rfl, rfl⟩
    exact absurd fits.2 (by decide)
  · intro other
    refine ⟨by omega, ?_⟩
    by_contra beyond
    -- A quotient this large has the magnitude of the least value.
    have quotient_eq : a.fdiv b = 2 ^ 63 := by omega
    have exact := Int.mul_fdiv_add_fmod a b
    have bounds := fmod_bounds a b
    rw [quotient_eq] at exact
    omega

/-- Every remainder of values is a value. -/
theorem fits_fmod
    (fits : Fits b)
    (nonzero : b ≠ 0) :
    Fits (a.fmod b) := by
  obtain ⟨least, most⟩ := fits
  have bounds := fmod_bounds a b
  constructor <;> omega

/-- Dividing with rest: the rest is smaller than the divisor and has its sign. -/
theorem fdiv_rest
    {q r : Int}
    (nonzero : b ≠ 0)
    (quotient : q = a.fdiv b)
    (rest : r = a - b * a.fdiv b) :
    a = b * q + r ∧ (r = 0 ∨ r.sign = b.sign) ∧ r.natAbs < b.natAbs := by
  subst quotient
  rw [← Int.fmod_def] at rest
  subst rest
  have bounds := fmod_bounds a b
  refine ⟨(Int.mul_fdiv_add_fmod a b).symm, ?_, by omega⟩
  rcases Int.lt_or_gt_of_ne nonzero with negative | positive
  · rw [Int.sign_eq_neg_one_of_neg negative, Int.sign_eq_neg_one_iff_neg]
    omega
  · rw [Int.sign_eq_one_of_pos positive, Int.sign_eq_one_iff_pos]
    omega

end Rounding

/-! ## Operations on values -/

section Operations

variable {a b : Int64}

theorem toInt_ne_zero
    (nonzero : b ≠ 0) :
    b.toInt ≠ 0 := by
  rw [ne_eq, ← Int64.toInt_zero, Int64.toInt_inj]
  exact nonzero

/-- The signs of words are those of the integers. -/
theorem decide_neg_ne_iff :
    decide (a < 0) ≠ decide (b < 0) ↔ ¬ (a.toInt < 0 ↔ b.toInt < 0) := by
  rw [ne_eq, decide_eq_decide, Int64.lt_iff_toInt_lt, Int64.lt_iff_toInt_lt, Int64.toInt_zero]

theorem mod_ne_zero_iff :
    a % b ≠ 0 ↔ a.toInt.tmod b.toInt ≠ 0 := by
  rw [ne_eq, ← Int64.toInt_inj, Int64.toInt_mod, Int64.toInt_zero]

theorem least_by_minus_one_iff :
    a = Int64.minValue ∧ b = -1 ↔ a.toInt = -2 ^ 63 ∧ b.toInt = -1 := by
  rw [← Int64.toInt_inj, ← Int64.toInt_inj, Int64.toInt_minValue]
  rfl

/-- Machine division rounds toward zero, and overflows only where the least value is
divided by minus one. -/
theorem toInt_div
    (other : ¬ (a = Int64.minValue ∧ b = -1)) :
    (a / b).toInt = a.toInt.tdiv b.toInt := by
  by_cases least : a = Int64.minValue
  · exact Int64.toInt_div_of_ne_right a b fun minusOne => other ⟨least, minusOne⟩
  · exact Int64.toInt_div_of_ne_left a b least

/-- The quotient is exact. -/
theorem floorDiv_eq_narrow
    (nonzero : b ≠ 0) :
    floorDiv a b = narrow (a.toInt.fdiv b.toInt) := by
  have nonzero' := toInt_ne_zero nonzero
  have range := fits_fdiv_iff (fits_toInt a) nonzero'
  rw [← least_by_minus_one_iff] at range
  unfold floorDiv
  rw [if_neg nonzero]
  by_cases least : a = Int64.minValue ∧ b = -1
  · rw [if_pos least, narrow_of_not_fits fun fits => range.mp fits least]
  · have quotient : a / b = Int64.ofInt (a.toInt.tdiv b.toInt) := by
      rw [← toInt_div least, Int64.ofInt_toInt]
    rw [if_neg least, narrow_of_fits (range.mpr least)]
    dsimp only
    split
    · next corrected =>
      rw [mod_ne_zero_iff, decide_neg_ne_iff] at corrected
      rw [(fdiv_fmod_of_signs_differ nonzero' corrected.1 corrected.2).1, quotient,
        Int64.ofInt_sub]
      rfl
    · next kept =>
      rw [mod_ne_zero_iff, decide_neg_ne_iff] at kept
      rw [(fdiv_fmod_of_signs_agree nonzero' (by omega)).1, quotient]

/-- So is the remainder, which always fits. -/
theorem floorMod_eq_narrow
    (nonzero : b ≠ 0) :
    floorMod a b = narrow (a.toInt - b.toInt * a.toInt.fdiv b.toInt) := by
  have nonzero' := toInt_ne_zero nonzero
  have remainder : a % b = Int64.ofInt (a.toInt.tmod b.toInt) := by
    rw [← Int64.toInt_mod, Int64.ofInt_toInt]
  -- What is left over has the sign of the dividend, so the signs can be compared there.
  obtain ⟨-, nonneg, nonpos⟩ := tmod_bounds a.toInt nonzero'
  rw [← Int.fmod_def, narrow_of_fits (fits_fmod (fits_toInt b) nonzero')]
  unfold floorMod
  rw [if_neg nonzero]
  dsimp only
  split
  · next corrected =>
    rw [mod_ne_zero_iff, decide_neg_ne_iff, Int64.toInt_mod] at corrected
    rw [(fdiv_fmod_of_signs_differ nonzero' corrected.1 (by omega)).2, remainder,
      Int64.ofInt_add, Int64.ofInt_toInt]
  · next kept =>
    rw [mod_ne_zero_iff, decide_neg_ne_iff, Int64.toInt_mod] at kept
    rw [(fdiv_fmod_of_signs_agree nonzero' (by omega)).2, remainder]

theorem negate_eq_narrow (a : Int64) : negate a = narrow (-a.toInt) := by
  have fits := fits_toInt a
  have least : a = Int64.minValue ↔ a.toInt = -2 ^ 63 := by
    rw [← Int64.toInt_inj, Int64.toInt_minValue]
  unfold negate
  by_cases isLeast : a = Int64.minValue
  · rw [if_pos isLeast, narrow_of_not_fits]
    rw [least] at isLeast
    simp [Fits, isLeast]
  · rw [if_neg isLeast, narrow_of_fits, Int64.ofInt_neg, Int64.ofInt_toInt]
    rw [least] at isLeast
    exact ⟨by have := fits.2; omega, by have := fits.1; omega⟩

theorem ofBool_eq_narrow
    {condition : Bool}
    {holds : Prop}
    [Decidable holds]
    (agree : condition = true ↔ holds) :
    .ok (ofBool condition) = narrow (if holds then 1 else 0) := by
  by_cases held : holds
  · rw [agree.mpr held, if_pos held]
    rfl
  · rw [Bool.eq_false_iff.mpr fun isTrue => held (agree.mp isTrue), if_neg held]
    rfl

theorem beq_iff_toInt_eq : (a == b) = true ↔ a.toInt = b.toInt := by
  rw [beq_iff_eq, Int64.toInt_inj]

theorem decide_lt_iff_toInt_lt : decide (a < b) = true ↔ a.toInt < b.toInt := by
  rw [decide_eq_true_iff, Int64.lt_iff_toInt_lt]

end Operations

variable {kind : Kind}

/-- A computation with one value gives its exact result, if that fits. -/
theorem unary_eq_narrow
    {operation : Int64 -> Except Fault Int64}
    (isUnary : unary? kind = some operation)
    (a : Int64) :
    ∃ result, kind.unaryResult? a.toInt = some result ∧ operation a = narrow result := by
  cases kind with
  | not =>
    obtain rfl := Option.some.inj isUnary
    exact ⟨_, rfl, ofBool_eq_narrow beq_iff_toInt_eq⟩
  | negate =>
    obtain rfl := Option.some.inj isUnary
    exact ⟨_, rfl, negate_eq_narrow a⟩
  | _ => cases isUnary

/-- A computation with two values gives its exact result, if that fits, unless it
divides by zero. -/
theorem binary_eq_narrow
    {operation : Int64 -> Int64 -> Except Fault Int64}
    (isBinary : binary? kind = some operation)
    (a b : Int64) :
    ∃ result, kind.binaryResult? a.toInt b.toInt = some result ∧
      (kind.divides ∧ b = 0 -> operation a b = .error .divisionByZero) ∧
      (¬ (kind.divides ∧ b = 0) -> operation a b = narrow result) := by
  cases kind with
  | add | subtract | multiply =>
    obtain rfl := Option.some.inj isBinary
    exact ⟨_, rfl, by simp [Kind.divides], fun _ => rfl⟩
  | divide =>
    obtain rfl := Option.some.inj isBinary
    exact ⟨_, rfl, fun byZero => if_pos byZero.2,
      fun nonzero => floorDiv_eq_narrow fun isZero => nonzero ⟨.inl rfl, isZero⟩⟩
  | modulo =>
    obtain rfl := Option.some.inj isBinary
    exact ⟨_, rfl, fun byZero => if_pos byZero.2,
      fun nonzero => floorMod_eq_narrow fun isZero => nonzero ⟨.inr rfl, isZero⟩⟩
  | and =>
    obtain rfl := Option.some.inj isBinary
    refine ⟨_, rfl, by simp [Kind.divides], fun _ => ?_⟩
    rw [← toInt_and, narrow_toInt]
  | or =>
    obtain rfl := Option.some.inj isBinary
    refine ⟨_, rfl, by simp [Kind.divides], fun _ => ?_⟩
    rw [← toInt_or, narrow_toInt]
  | equality =>
    obtain rfl := Option.some.inj isBinary
    exact ⟨_, rfl, by simp [Kind.divides], fun _ => ofBool_eq_narrow beq_iff_toInt_eq⟩
  | greaterThan | lessThan =>
    obtain rfl := Option.some.inj isBinary
    exact ⟨_, rfl, by simp [Kind.divides], fun _ => ofBool_eq_narrow decide_lt_iff_toInt_lt⟩
  | _ => cases isBinary

end Arithmetic

/-! ## Instructions -/

theorem Stack.topDown_of_toList
    {α : Type}
    {stack : Stack α}
    {below above : List α}
    (stack_eq : stack.toList = below ++ above) :
    stack.topDown = above.reverse ++ below.reverse := by
  rw [← List.reverse_append, ← stack_eq, toList, List.reverse_reverse]

namespace Width

/-- Whether an integer is beyond the bound of a width, if there is one. -/
def ExceededBy (width : Width) (result : Int) : Prop :=
  width.bytes < 8 ∧ 2 ^ (8 * width.bytes) < result.natAbs

instance (width : Width) (result : Int) : Decidable (width.ExceededBy result) :=
  inferInstanceAs (Decidable (_ ∧ _))

theorem admits_iff_not_exceededBy
    (width : Width)
    (value : Int64) :
    width.admits value ↔ ¬ width.ExceededBy value.toInt := by
  rw [admits_iff, ExceededBy]
  omega

end Width

namespace Effect

variable {machine : Machine} {value : Int64}

theorem pushResult_of_check_eq_ok
    (checked : machine.width.check value = .ok ()) :
    pushResult machine (.ok value) =
      .ok none { machine with stack := machine.stack.push value } := by
  simp only [pushResult, checked]

theorem pushResult_of_check_eq_error
    {excess : Overflow}
    (checked : machine.width.check value = .error excess) :
    pushResult machine (.ok value) = .error (.overflow excess) machine := by
  simp only [pushResult, checked]

end Effect

namespace Engine

/-- What a step ends with: the values that it leaves, from the bottom up, or the cause
of its failure. -/
def outcome : State × Option Failure -> Except Fault (List Int64)
  | (after, none) => .ok after.machine.stack.toList
  | (_, some failure) => .error failure.fault

/-- What the next instruction ends with, if there is one. -/
def State.outcome? (sink : Sink) (program : Program) (state : State) :
    Option (Except Fault (List Int64)) :=
  (state.step? sink program).map outcome

/-- The next instruction computes an exact result above some values, unless it is
asked to divide by zero. -/
structure State.Delivers
    (sink : Sink)
    (program : Program)
    (state : State)
    (below : List Int64)
    (byZero : Prop)
    (result : Int) : Prop where
  /-- Division by zero comes first. -/
  divisionByZero : state.outcome? sink program = some (.error .divisionByZero) ↔ byZero
  /-- Then the result has to be a value. -/
  integerOverflow : state.outcome? sink program = some (.error .integerOverflow) ↔
    ¬ byZero ∧ ¬ Arithmetic.Fits result
  /-- Then the value has to be within the bound, and is reported if it is not. -/
  overflow : ∀ excess, state.outcome? sink program = some (.error (.overflow excess)) ↔
    ¬ byZero ∧ Arithmetic.Fits result ∧ state.machine.width.ExceededBy result ∧
      excess.value.toInt = result ∧ excess.bytes = state.machine.width.bytes
  /-- Otherwise it is pushed. -/
  pushed : ∀ value, state.outcome? sink program = some (.ok (below ++ [value])) ↔
    ¬ byZero ∧ Arithmetic.Fits result ∧ ¬ state.machine.width.ExceededBy result ∧
      value.toInt = result

section Steps

variable {sink : Sink} {program : Program} {state : State} {instruction : Instruction}

/-- What comes of an instruction that computes is what comes of its effect. -/
theorem State.outcome?_of_computes
    (sink : Sink)
    (found : program[state.index]? = some instruction)
    (opened : state.gate = true)
    (computes : instruction.kind.classOf = .unary ∨ instruction.kind.classOf = .binary)
    {left : Machine} :
    (Effect.apply instruction (state.memory.machine .empty) = .ok none left ->
      state.outcome? sink program = some (.ok left.stack.toList)) ∧
    ∀ fault, Effect.apply instruction (state.memory.machine .empty) = .error fault left ->
      state.outcome? sink program = some (.error fault) := by
  have isEffect : instruction.kind.isPlain = true ∧ instruction.kind ≠ .save ∧
      instruction.kind ≠ .load := by
    cases kind : instruction.kind <;> simp_all [Kind.classOf, Kind.isPlain]
  obtain ⟨isPlain, notSave, notLoad⟩ := isEffect
  have stepped : state.step? sink program = some (state.perform sink program instruction) := by
    simp only [step?, found, opened, if_true]
  rw [outcome?, stepped, perform_plain sink program state isPlain, Memory.perform,
    plainAction_effect notSave notLoad]
  constructor
  · intro applied
    simp only [applied]
    rfl
  · intro fault applied
    simp only [applied]
    rfl

/-- An instruction delivers its exact result if its computation gives it, as far as it
fits. -/
theorem State.delivers_of_apply
    (sink : Sink)
    (found : program[state.index]? = some instruction)
    (opened : state.gate = true)
    (computes : instruction.kind.classOf = .unary ∨ instruction.kind.classOf = .binary)
    {left : Stack Int64}
    {computed : Except Fault Int64}
    (applied : Effect.apply instruction (state.memory.machine .empty) =
      Effect.pushResult { state.memory.machine .empty with stack := left } computed)
    {byZero : Prop}
    {result : Int}
    (zero : byZero -> computed = .error .divisionByZero)
    (exact : ¬ byZero -> computed = Arithmetic.narrow result) :
    state.Delivers sink program left.toList byZero result := by
  by_cases divided : byZero
  · rw [zero divided] at applied
    have outcome_eq := (outcome?_of_computes sink found opened computes).2 _ applied
    constructor <;> simp [outcome_eq, divided]
  rw [exact divided] at applied
  by_cases fits : Arithmetic.Fits result
  · rw [Arithmetic.narrow_of_fits fits] at applied
    have value_eq := (Arithmetic.ofInt_eq_iff fits _).mp rfl
    have admitted := state.machine.width.admits_iff_not_exceededBy (Int64.ofInt result)
    rw [value_eq] at admitted
    by_cases exceeded : state.machine.width.ExceededBy result
    · have checked : state.machine.width.check (Int64.ofInt result) =
          .error { value := Int64.ofInt result, bytes := state.machine.width.bytes } :=
        if_neg (by simp [admitted, exceeded])
      have outcome_eq := (outcome?_of_computes sink found opened computes).2 _
        (applied.trans (Effect.pushResult_of_check_eq_error checked))
      refine ⟨by simp [outcome_eq, divided], by simp [outcome_eq, fits], fun excess => ?_,
        by simp [outcome_eq, exceeded]⟩
      obtain ⟨reported, bytes⟩ := excess
      simp only [outcome_eq, divided, fits, exceeded, not_false_eq_true, true_and,
        Option.some.injEq, Except.error.injEq, Fault.overflow.injEq, Overflow.mk.injEq,
        Arithmetic.ofInt_eq_iff fits, eq_comm (b := bytes)]
    · have checked : state.machine.width.check (Int64.ofInt result) = .ok () :=
        if_pos (admitted.mpr exceeded)
      have outcome_eq := (outcome?_of_computes sink found opened computes).1
        (applied.trans (Effect.pushResult_of_check_eq_ok checked))
      refine ⟨by simp [outcome_eq, divided], by simp [outcome_eq, fits],
        by simp [outcome_eq, exceeded], fun value => ?_⟩
      simp only [outcome_eq, divided, fits, exceeded, not_false_eq_true, true_and,
        Option.some.injEq, Except.ok.injEq, Stack.toList_push, List.append_cancel_left_eq,
        List.cons.injEq, and_true, Arithmetic.ofInt_eq_iff fits]
  · rw [Arithmetic.narrow_of_not_fits fits] at applied
    have outcome_eq := (outcome?_of_computes sink found opened computes).2 _ applied
    constructor <;> simp [outcome_eq, divided, fits]

/-- An instruction with two operands delivers its exact result. -/
theorem State.delivers_binary
    (sink : Sink)
    (found : program[state.index]? = some instruction)
    (opened : state.gate = true)
    (isBinary : instruction.kind.classOf = .binary)
    {below : List Int64}
    {a b : Int64}
    (operands : state.machine.stack.toList = below ++ [a, b]) :
    ∃ result, instruction.kind.binaryResult? a.toInt b.toInt = some result ∧
      state.Delivers sink program below (instruction.kind.divides ∧ b = 0) result := by
  obtain ⟨operation, computes⟩ : ∃ operation, Arithmetic.binary? instruction.kind =
      some operation := by
    cases kind : instruction.kind <;> simp_all [Kind.classOf, Arithmetic.binary?]
  obtain ⟨result, result_eq, zero, exact⟩ := Arithmetic.binary_eq_narrow computes a b
  refine ⟨result, result_eq, ?_⟩
  have topDown_eq : state.machine.stack.topDown = b :: a :: below.reverse := by
    simpa using Stack.topDown_of_toList operands
  have applied := Effect.apply_binary (state.memory.machine .empty) computes
  have memory_eq : (state.memory.machine .empty).stack = state.machine.stack := rfl
  simp only [memory_eq, topDown_eq] at applied
  have delivers := delivers_of_apply sink found opened (.inr isBinary) applied zero exact
  simpa [Stack.toList] using delivers

/-- So does an instruction with one operand, which never divides. -/
theorem State.delivers_unary
    (sink : Sink)
    (found : program[state.index]? = some instruction)
    (opened : state.gate = true)
    (isUnary : instruction.kind.classOf = .unary)
    {below : List Int64}
    {a : Int64}
    (operand : state.machine.stack.toList = below ++ [a]) :
    ∃ result, instruction.kind.unaryResult? a.toInt = some result ∧
      state.Delivers sink program below False result := by
  obtain ⟨operation, computes⟩ : ∃ operation, Arithmetic.unary? instruction.kind =
      some operation := by
    cases kind : instruction.kind <;> simp_all [Kind.classOf, Arithmetic.unary?]
  obtain ⟨result, result_eq, exact⟩ := Arithmetic.unary_eq_narrow computes a
  refine ⟨result, result_eq, ?_⟩
  have topDown_eq : state.machine.stack.topDown = a :: below.reverse := by
    simpa using Stack.topDown_of_toList operand
  have applied := Effect.apply_unary (state.memory.machine .empty) computes
  have memory_eq : (state.memory.machine .empty).stack = state.machine.stack := rfl
  simp only [memory_eq, Stack.pop?, topDown_eq] at applied
  have delivers := delivers_of_apply sink found opened (.inl isUnary) applied False.elim
    fun _ => exact
  simpa [Stack.toList] using delivers

section Division

variable {below : List Int64} {a b : Int64}

/-- A kind that divides delivers its exact result unless the divisor is zero. -/
theorem State.delivers_division
    (sink : Sink)
    (found : program[state.index]? = some instruction)
    (opened : state.gate = true)
    (divides : instruction.kind.divides)
    (operands : state.machine.stack.toList = below ++ [a, b])
    {result : Int}
    (result_eq : instruction.kind.binaryResult? a.toInt b.toInt = some result) :
    state.Delivers sink program below (b = 0) result := by
  have isBinary : instruction.kind.classOf = .binary := by
    rcases divides with isDivide | isModulo
    · rw [isDivide]
      rfl
    · rw [isModulo]
      rfl
  obtain ⟨exact, exact_eq, delivers⟩ := delivers_binary sink found opened isBinary operands
  rw [result_eq] at exact_eq
  cases exact_eq
  simpa [divides] using delivers

/-- A quotient is a value, except for the least value divided by minus one. -/
theorem State.Delivers.integerOverflow_divide
    (delivers : state.Delivers sink program below (b = 0) (a.toInt.fdiv b.toInt)) :
    state.outcome? sink program = some (.error .integerOverflow) ↔
      a.toInt = -2 ^ 63 ∧ b.toInt = -1 := by
  rw [delivers.integerOverflow]
  by_cases isZero : b = 0
  · subst isZero
    simp
  · rw [Arithmetic.fits_fdiv_iff (Arithmetic.fits_toInt a) (Arithmetic.toInt_ne_zero isZero)]
    simp [isZero]

/-- A remainder is always a value. -/
theorem State.Delivers.integerOverflow_modulo
    (delivers : state.Delivers sink program below (b = 0)
      (a.toInt - b.toInt * a.toInt.fdiv b.toInt)) :
    state.outcome? sink program ≠ some (.error .integerOverflow) := by
  rw [ne_eq, delivers.integerOverflow, ← Int.fmod_def]
  rintro ⟨nonzero, beyond⟩
  exact beyond (Arithmetic.fits_fmod (Arithmetic.fits_toInt b) (Arithmetic.toInt_ne_zero nonzero))

end Division

end Steps

/-- No computation wraps around.  With two operands on top of the stack, an instruction
that takes them divides by zero, or has an exact result that is not a value, or has one
beyond the bound, which it reports, or else pushes the exact result; each of these
happens in its own case only.  The same goes for negation.  Where a quotient and a
remainder of the same operands are both pushed, they divide with rest as integers
do. -/
theorem computations_are_exact
    (sink : Sink)
    (program : Program)
    (state : State)
    (instruction : Instruction)
    (found : program[state.index]? = some instruction)
    (opened : state.gate = true)
    (below : List Int64) :
    (∀ a b, state.machine.stack.toList = below ++ [a, b] ->
      instruction.kind.classOf = .binary ->
      (∃ result, instruction.kind.binaryResult? a.toInt b.toInt = some result ∧
        state.Delivers sink program below (instruction.kind.divides ∧ b = 0) result) ∧
      (instruction.kind = .divide ->
        (state.outcome? sink program = some (.error .integerOverflow) ↔
          a.toInt = -2 ^ 63 ∧ b.toInt = -1) ∧
        ∀ (other : Program) (remaining : Instruction) (q r : Int64),
          other[state.index]? = some remaining ->
          remaining.kind = .modulo ->
          state.outcome? sink program = some (.ok (below ++ [q])) ->
          state.outcome? sink other = some (.ok (below ++ [r])) ->
          a.toInt = b.toInt * q.toInt + r.toInt ∧
            (r.toInt = 0 ∨ r.toInt.sign = b.toInt.sign) ∧
            r.toInt.natAbs < b.toInt.natAbs) ∧
      (instruction.kind = .modulo ->
        state.outcome? sink program ≠ some (.error .integerOverflow))) ∧
    ∀ a, state.machine.stack.toList = below ++ [a] ->
      instruction.kind = .negate ->
      state.Delivers sink program below False (-a.toInt) := by
  refine ⟨fun a b operands isBinary => ⟨?_, fun isDivide => ?_, fun isModulo => ?_⟩,
    fun a operand isNegate => ?_⟩
  · exact State.delivers_binary sink found opened isBinary operands
  · have divides := State.delivers_division sink found opened (.inl isDivide) operands
      (by rw [isDivide]; rfl)
    refine ⟨divides.integerOverflow_divide, ?_⟩
    intro other remaining q r found' isModulo divided remained
    have leaves := State.delivers_division sink found' opened (.inr isModulo) operands
      (by rw [isModulo]; rfl)
    obtain ⟨nonzero, -, -, quotient⟩ := (divides.pushed q).mp divided
    obtain ⟨-, -, -, rest⟩ := (leaves.pushed r).mp remained
    exact Arithmetic.fdiv_rest (Arithmetic.toInt_ne_zero nonzero) quotient rest
  · exact (State.delivers_division sink found opened (.inr isModulo) operands
      (by rw [isModulo]; rfl)).integerOverflow_modulo
  · obtain ⟨result, result_eq, delivers⟩ :=
      State.delivers_unary sink found opened (by rw [isNegate]; rfl) operand
    rw [isNegate] at result_eq
    cases result_eq
    exact delivers

/-- A state at the first instruction, with the given width and the given values from
the top down. -/
def atStart (width : Width) (values : List Int64) : State where
  machine := { Machine.new width with stack := { topDown := values } }
  frames := []
  index := 0
  steps := 0
  output := ""
  offered := []

/-- Minus seven divided by two is minus four, rest one.  The least value has no quotient
by minus one and no opposite.  The sum of the two largest bytes is reported. -/
theorem computations_are_exact_atStart :
    (-7 : Int64).toInt = (2 : Int64).toInt * (-4 : Int64).toInt + (1 : Int64).toInt ∧
    (atStart .standard [-1, Int64.minValue]).outcome? .unlimited [.plain .divide .nowhere] =
      some (.error .integerOverflow) ∧
    (atStart .standard [Int64.minValue]).outcome? .unlimited [.plain .negate .nowhere] =
      some (.error .integerOverflow) ∧
    (atStart (.ofInt 1) [255, 255]).outcome? .unlimited [.plain .add .nowhere] =
      some (.error (.overflow { value := 510, bytes := 1 })) := by
  refine ⟨?_, ?_, ?_, ?_⟩
  · have exact := (computations_are_exact .unlimited [.plain .divide .nowhere]
      (atStart .standard [2, -7]) (.plain .divide .nowhere) rfl rfl []).1 _ _ rfl rfl
    exact ((exact.2.1 rfl).2 [.plain .modulo .nowhere] (.plain .modulo .nowhere) (-4) 1
      rfl rfl rfl rfl).1
  · have exact := (computations_are_exact .unlimited [.plain .divide .nowhere]
      (atStart .standard [-1, Int64.minValue]) (.plain .divide .nowhere) rfl rfl []).1 _ _ rfl rfl
    exact (exact.2.1 rfl).1.mpr (by decide)
  · have exact := (computations_are_exact .unlimited [.plain .negate .nowhere]
      (atStart .standard [Int64.minValue]) (.plain .negate .nowhere) rfl rfl []).2 _ rfl rfl
    exact exact.integerOverflow.mpr (by decide)
  · have exact := (computations_are_exact .unlimited [.plain .add .nowhere]
      (atStart (.ofInt 1) [255, 255]) (.plain .add .nowhere) rfl rfl []).1 _ _ rfl rfl
    obtain ⟨⟨result, result_eq, delivers⟩, -⟩ := exact
    cases result_eq
    exact (delivers.overflow _).mpr (by decide)

end Engine
end GlyphStack
