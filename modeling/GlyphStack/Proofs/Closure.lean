import GlyphStack.Proofs.Exactness

/-!
# Kinds that stay within the bound

A width of fewer than eight bytes covers the integers from minus a power of two up to
that power, both included.  This is one integer more than the words of that many bits
and a sign have, and so it is not clear from the bits alone what stays in it.

Most kinds do: a quotient is no larger than the dividend, a remainder than the divisor,
a conjunction than either operand.  The disjunction is the exception.  The power itself
has a bit of its own, and the other operand may add lower ones to it.
-/

namespace GlyphStack

namespace Width

/-- Whether an integer is within the bound of a width that has one. -/
def Covers (width : Width) (n : Int) : Prop :=
  -2 ^ (8 * width.bytes) ≤ n ∧ n ≤ 2 ^ (8 * width.bytes)

instance (width : Width) (n : Int) : Decidable (width.Covers n) :=
  inferInstanceAs (Decidable (_ ∧ _))

variable {width : Width} {n : Int}

theorem exceededBy_iff_not_covers
    (bounded : width.bytes < 8) :
    width.ExceededBy n ↔ ¬ width.Covers n := by
  have power : (2 ^ (8 * width.bytes) : Int) = ((2 ^ (8 * width.bytes) : Nat) : Int) := by
    push_cast
    rfl
  rw [ExceededBy, Covers, power]
  omega

/-- Nothing that a width of fewer than eight bytes covers is near the limits of the
words. -/
theorem Covers.fits
    (covers : width.Covers n)
    (bounded : width.bytes < 8) :
    Arithmetic.Fits n := by
  have power : (2 : Int) ^ (8 * width.bytes) ≤ 2 ^ 56 := by
    exact_mod_cast Nat.pow_le_pow_right (show 0 < 2 by decide) (show 8 * width.bytes ≤ 56 by omega)
  obtain ⟨lower, upper⟩ := covers
  constructor <;> omega

theorem covers_of_natAbs_le
    {other : Int}
    (covers : width.Covers other)
    (smaller : n.natAbs ≤ other.natAbs) :
    width.Covers n := by
  obtain ⟨lower, upper⟩ := covers
  constructor <;> omega

theorem covers_ite
    (width : Width)
    (holds : Prop)
    [Decidable holds] :
    width.Covers (if holds then 1 else 0) := by
  have positive : (0 : Int) < 2 ^ (8 * width.bytes) := Int.pow_pos (by decide)
  unfold Covers
  split <;> omega

end Width

namespace Kind

variable {kind : Kind} {width : Width} {a b result : Int}

/-- The results of these kinds are covered if their operands are, those of a division
by zero included. -/
theorem binaryResult?_covers
    (closed : kind ∈ [.and, .divide, .modulo, .equality, .greaterThan, .lessThan])
    (first : width.Covers a)
    (second : width.Covers b)
    (result_eq : kind.binaryResult? a b = some result) :
    width.Covers result := by
  cases kind with
  | and =>
    cases result_eq
    have nonneg : (0 : Int) ≤ 2 ^ (8 * width.bytes) := Int.pow_nonneg (by decide)
    exact ⟨Bitwise.neg_two_pow_le_land first.1 second.1, Bitwise.land_le nonneg first.2 second.2⟩
  | divide =>
    cases result_eq
    exact Width.covers_of_natAbs_le first (Int.natAbs_fdiv_le_natAbs a b)
  | modulo =>
    cases result_eq
    by_cases isZero : b = 0
    · subst isZero
      simpa using first
    · obtain ⟨-, -, smaller⟩ := Arithmetic.fdiv_rest (a := a) isZero rfl rfl
      exact Width.covers_of_natAbs_le second (Nat.le_of_lt smaller)
  | equality | greaterThan | lessThan =>
    cases result_eq
    apply Width.covers_ite
  | _ => simp at closed

theorem unaryResult?_covers
    (operand : width.Covers a)
    (result_eq : kind.unaryResult? a = some result) :
    width.Covers result := by
  cases kind with
  | not =>
    cases result_eq
    apply Width.covers_ite
  | negate =>
    cases result_eq
    exact Width.covers_of_natAbs_le operand (Nat.le_of_eq (Int.natAbs_neg a))
  | _ => cases result_eq

end Kind

namespace Engine

/-- The next instruction fails because a result is too large, for a word or for the
width. -/
def State.Overflows (sink : Sink) (program : Program) (state : State) : Prop :=
  state.outcome? sink program = some (.error .integerOverflow) ∨
    ∃ excess, state.outcome? sink program = some (.error (.overflow excess))

section Steps

variable {sink : Sink} {program : Program} {state : State} {below : List Int64}
  {byZero : Prop} {result : Int}

/-- A covered result never overflows. -/
theorem State.Delivers.not_overflows
    (delivers : state.Delivers sink program below byZero result)
    (bounded : state.machine.width.bytes < 8)
    (covers : state.machine.width.Covers result) :
    ¬ state.Overflows sink program := by
  rintro (overflowed | ⟨excess, overflowed⟩)
  · obtain ⟨-, beyond⟩ := delivers.integerOverflow.mp overflowed
    exact beyond (covers.fits bounded)
  · obtain ⟨-, -, exceeded, -⟩ := (delivers.overflow excess).mp overflowed
    exact (Width.exceededBy_iff_not_covers bounded).mp exceeded covers

/-- The bound is exceeded exactly by a result that is not covered, if it is a value. -/
theorem State.Delivers.exists_overflow_iff
    (delivers : state.Delivers sink program below byZero result)
    (nonzero : ¬ byZero)
    (bounded : state.machine.width.bytes < 8)
    (fits : Arithmetic.Fits result) :
    (∃ excess, state.outcome? sink program = some (.error (.overflow excess))) ↔
      ¬ state.machine.width.Covers result := by
  rw [← Width.exceededBy_iff_not_covers bounded]
  constructor
  · rintro ⟨excess, overflowed⟩
    exact ((delivers.overflow excess).mp overflowed).2.2.1
  · intro exceeded
    exact ⟨⟨Int64.ofInt result, _⟩, (delivers.overflow _).mpr
      ⟨nonzero, fits, exceeded, (Arithmetic.ofInt_eq_iff fits _).mp rfl, rfl⟩⟩

end Steps

/-- With operands that a width of fewer than eight bytes covers, conjunction, quotient,
remainder, the comparisons, logical negation and the change of sign never overflow.  A
disjunction exceeds the bound exactly if one operand is the bound itself and the other
lies strictly between zero and the bound. -/
theorem only_disjunction_leaves_range
    (sink : Sink)
    (program : Program)
    (state : State)
    (instruction : Instruction)
    (found : program[state.index]? = some instruction)
    (opened : state.gate = true)
    (bounded : state.machine.width.bytes < 8)
    (below : List Int64) :
    (∀ a b, state.machine.stack.toList = below ++ [a, b] ->
      state.machine.width.Covers a.toInt ->
      state.machine.width.Covers b.toInt ->
      (instruction.kind ∈ [.and, .divide, .modulo, .equality, .greaterThan, .lessThan] ->
        ¬ state.Overflows sink program) ∧
      (instruction.kind = .or ->
        ((∃ excess, state.outcome? sink program = some (.error (.overflow excess))) ↔
          a.toInt = 2 ^ (8 * state.machine.width.bytes) ∧
            0 < b.toInt ∧ b.toInt < 2 ^ (8 * state.machine.width.bytes) ∨
          b.toInt = 2 ^ (8 * state.machine.width.bytes) ∧
            0 < a.toInt ∧ a.toInt < 2 ^ (8 * state.machine.width.bytes)))) ∧
    ∀ a, state.machine.stack.toList = below ++ [a] ->
      state.machine.width.Covers a.toInt ->
      instruction.kind ∈ [.not, .negate] ->
      ¬ state.Overflows sink program := by
  refine ⟨fun a b operands first second => ⟨fun closed => ?_, fun isOr => ?_⟩,
    fun a operand covers closed => ?_⟩
  · have isBinary : instruction.kind.classOf = .binary := by
      cases kind : instruction.kind <;> simp_all [Kind.classOf]
    obtain ⟨result, result_eq, delivers⟩ :=
      State.delivers_binary sink found opened isBinary operands
    exact delivers.not_overflows bounded (Kind.binaryResult?_covers closed first second result_eq)
  · obtain ⟨result, result_eq, delivers⟩ :=
      State.delivers_binary sink found opened (by rw [isOr]; rfl) operands
    rw [isOr] at result_eq delivers
    cases result_eq
    -- The disjunction of two words is a word, so only the bound is left to exceed.
    have fits : Arithmetic.Fits (a.toInt.lor b.toInt) := by
      rw [← Arithmetic.toInt_or]
      exact Arithmetic.fits_toInt _
    rw [delivers.exists_overflow_iff (by simp [Kind.divides]) bounded fits,
      ← Bitwise.two_pow_lt_lor_iff first.2 second.2, Width.Covers]
    have lower := Bitwise.neg_two_pow_le_lor first.1 second.1
    omega
  · have isUnary : instruction.kind.classOf = .unary := by
      cases kind : instruction.kind <;> simp_all [Kind.classOf]
    obtain ⟨result, result_eq, delivers⟩ :=
      State.delivers_unary sink found opened isUnary operand
    exact delivers.not_overflows bounded (Kind.unaryResult?_covers covers result_eq)

/-- With one byte, the bound divided by minus one is its opposite, which is covered, and
the bound changes its sign likewise.  Its disjunction with one exceeds it. -/
theorem only_disjunction_leaves_range_atStart :
    ¬ (atStart (.ofInt 1) [-1, 256]).Overflows .unlimited [.plain .divide .nowhere] ∧
    ¬ (atStart (.ofInt 1) [256]).Overflows .unlimited [.plain .negate .nowhere] ∧
    ∃ excess, (atStart (.ofInt 1) [1, 256]).outcome? .unlimited [.plain .or .nowhere] =
      some (.error (.overflow excess)) := by
  refine ⟨?_, ?_, ?_⟩
  · have range := (only_disjunction_leaves_range .unlimited [.plain .divide .nowhere]
      (atStart (.ofInt 1) [-1, 256]) (.plain .divide .nowhere) rfl rfl (by decide) []).1
    exact (range _ _ rfl (by decide) (by decide)).1 (by decide)
  · have range := (only_disjunction_leaves_range .unlimited [.plain .negate .nowhere]
      (atStart (.ofInt 1) [256]) (.plain .negate .nowhere) rfl rfl (by decide) []).2
    exact range _ rfl (by decide) (by decide)
  · have range := (only_disjunction_leaves_range .unlimited [.plain .or .nowhere]
      (atStart (.ofInt 1) [1, 256]) (.plain .or .nowhere) rfl rfl (by decide) []).1
    exact ((range _ _ rfl (by decide) (by decide)).2 rfl).mpr (by decide)

end Engine
end GlyphStack
