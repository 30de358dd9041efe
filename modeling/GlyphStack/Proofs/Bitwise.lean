import Mathlib.Data.Int.Bitwise

/-!
# Bitwise operations on integers and on words

The bits of an integer go on forever to the left, as ones if the integer is negative.
The conjunction and the disjunction of two words are those of the integers that the
words stand for.

Neither goes below a power of two, taken negative, that its operands do not go below.
A conjunction does not exceed both operands, unless it is negative.  A disjunction may
exceed them, since it can have more bits than either; but it has no higher ones.
-/

namespace GlyphStack
namespace Bitwise

/-! ## Words -/

/-- The bits of a word are the lowest bits of the integer that it was made from. -/
theorem getElem_ofInt
    {width index : Nat}
    (inside : index < width)
    (n : Int) :
    (BitVec.ofInt width n)[index] = n.testBit index := by
  have natural : ∀ m : Nat, (BitVec.ofNat width m)[index] = m.testBit index := by
    intro m
    rw [← BitVec.getLsbD_eq_getElem, BitVec.getLsbD_ofNat]
    simp [inside]
  cases n with
  | ofNat m => exact natural m
  | negSucc m =>
    rw [BitVec.ofInt_negSucc_eq_not_ofNat, BitVec.getElem_not, natural]
    rfl

theorem ofInt_land
    (width : Nat)
    (a b : Int) :
    BitVec.ofInt width (a.land b) = BitVec.ofInt width a &&& BitVec.ofInt width b := by
  ext index inside
  rw [BitVec.getElem_and, getElem_ofInt, getElem_ofInt, getElem_ofInt, Int.testBit_land]

theorem ofInt_lor
    (width : Nat)
    (a b : Int) :
    BitVec.ofInt width (a.lor b) = BitVec.ofInt width a ||| BitVec.ofInt width b := by
  ext index inside
  rw [BitVec.getElem_or, getElem_ofInt, getElem_ofInt, getElem_ofInt, Int.testBit_lor]

/-! ## Bounds -/

section Bounds

variable {size : Nat} {bound a b : Int}

theorem ldiff_le (m n : Nat) : m.ldiff n ≤ m :=
  Nat.le_of_testBit fun index set => by
    rw [Nat.testBit_ldiff, Bool.and_eq_true] at set
    exact set.1

/-- A negative integer is not below a power of two exactly if its complement has no
higher bits. -/
theorem neg_two_pow_le_negSucc_iff
    {n : Nat} :
    -2 ^ size ≤ Int.negSucc n ↔ n < 2 ^ size := by
  have power : (2 ^ size : Int) = ((2 ^ size : Nat) : Int) := by push_cast; rfl
  rw [power]
  omega

theorem neg_two_pow_le_land
    (first : -2 ^ size ≤ a)
    (second : -2 ^ size ≤ b) :
    -2 ^ size ≤ a.land b := by
  have positive : (0 : Int) < 2 ^ size := Int.pow_pos (by decide)
  have nonneg : ∀ n : Nat, -2 ^ size ≤ (n : Int) := by
    intro n
    omega
  cases a with
  | ofNat m => cases b <;> exact nonneg _
  | negSucc m =>
    cases b with
    | ofNat n => exact nonneg _
    | negSucc n =>
      rw [neg_two_pow_le_negSucc_iff] at first second
      exact neg_two_pow_le_negSucc_iff.mpr (Nat.or_lt_two_pow first second)

theorem land_le
    (nonneg : 0 ≤ bound)
    (first : a ≤ bound)
    (second : b ≤ bound) :
    a.land b ≤ bound := by
  cases a with
  | ofNat m =>
    cases b with
    | ofNat n => exact Int.le_trans (Int.ofNat_le.mpr Nat.and_le_left) first
    | negSucc n => exact Int.le_trans (Int.ofNat_le.mpr (ldiff_le m n)) first
  | negSucc m =>
    cases b with
    | ofNat n => exact Int.le_trans (Int.ofNat_le.mpr (ldiff_le n m)) second
    | negSucc n => exact Int.le_trans (Int.le_of_lt (Int.negSucc_lt_zero _)) nonneg

theorem neg_two_pow_le_lor
    (first : -2 ^ size ≤ a)
    (second : -2 ^ size ≤ b) :
    -2 ^ size ≤ a.lor b := by
  cases a with
  | ofNat m =>
    cases b with
    | ofNat n =>
      have positive : (0 : Int) < 2 ^ size := Int.pow_pos (by decide)
      exact Int.le_trans (by omega) (Int.natCast_nonneg (m ||| n))
    | negSucc n =>
      rw [neg_two_pow_le_negSucc_iff] at second
      exact neg_two_pow_le_negSucc_iff.mpr (Nat.lt_of_le_of_lt (ldiff_le n m) second)
  | negSucc m =>
    rw [neg_two_pow_le_negSucc_iff] at first
    cases b with
    | ofNat n => exact neg_two_pow_le_negSucc_iff.mpr (Nat.lt_of_le_of_lt (ldiff_le m n) first)
    | negSucc n => exact neg_two_pow_le_negSucc_iff.mpr (Nat.lt_of_le_of_lt Nat.and_le_left first)

theorem lor_neg
    (negative : a < 0 ∨ b < 0) :
    a.lor b < 0 := by
  cases a with
  | ofNat m =>
    cases b with
    | ofNat n =>
      have nonneg : 0 ≤ Int.ofNat m ∧ 0 ≤ Int.ofNat n :=
        ⟨Int.natCast_nonneg m, Int.natCast_nonneg n⟩
      omega
    | negSucc n => exact Int.negSucc_lt_zero _
  | negSucc m => cases b <;> exact Int.negSucc_lt_zero _

theorem lor_natCast (m n : Nat) : Int.lor m n = (m ||| n : Nat) := rfl

theorem lor_self (n : Int) : n.lor n = n := by
  cases n with
  | ofNat m => exact congrArg Int.ofNat (Nat.or_self m)
  | negSucc m => exact congrArg Int.negSucc (Nat.and_self m)

theorem lor_lt_two_pow
    (first : a < 2 ^ size)
    (second : b < 2 ^ size) :
    a.lor b < 2 ^ size := by
  by_cases negative : a < 0 ∨ b < 0
  · exact Int.lt_trans (lor_neg negative) (Int.pow_pos (by decide))
  obtain ⟨m, rfl⟩ := Int.eq_ofNat_of_zero_le (show 0 ≤ a by omega)
  obtain ⟨n, rfl⟩ := Int.eq_ofNat_of_zero_le (show 0 ≤ b by omega)
  have below : m ||| n < 2 ^ size :=
    Nat.or_lt_two_pow (by exact_mod_cast first) (by exact_mod_cast second)
  rw [lor_natCast]
  exact_mod_cast below

/-- A power of two has no bit in common with what is below it. -/
theorem lor_two_pow
    (nonneg : 0 ≤ b)
    (below : b < 2 ^ size) :
    Int.lor (2 ^ size) b = 2 ^ size + b ∧ Int.lor b (2 ^ size) = 2 ^ size + b := by
  obtain ⟨n, rfl⟩ := Int.eq_ofNat_of_zero_le nonneg
  have power : (2 ^ size : Int) = ((2 ^ size : Nat) : Int) := by push_cast; rfl
  have disjoint := Nat.two_pow_add_eq_or_of_lt (show n < 2 ^ size by exact_mod_cast below) 1
  rw [Nat.mul_one] at disjoint
  rw [power, lor_natCast, lor_natCast, Nat.or_comm n, ← disjoint]
  exact ⟨Int.natCast_add _ _, Int.natCast_add _ _⟩

/-- A disjunction exceeds a power of two that neither operand exceeds only if one of
them is that power and the other adds a bit to it. -/
theorem two_pow_lt_lor_iff
    (first : a ≤ 2 ^ size)
    (second : b ≤ 2 ^ size) :
    2 ^ size < a.lor b ↔
      a = 2 ^ size ∧ 0 < b ∧ b < 2 ^ size ∨ b = 2 ^ size ∧ 0 < a ∧ a < 2 ^ size := by
  have positive : (0 : Int) < 2 ^ size := Int.pow_pos (by decide)
  by_cases negative : a < 0 ∨ b < 0
  · have below := lor_neg negative
    omega
  rcases Int.lt_or_eq_of_le first with firstBelow | rfl
  · rcases Int.lt_or_eq_of_le second with secondBelow | rfl
    · have below := lor_lt_two_pow firstBelow secondBelow
      omega
    · rw [(lor_two_pow (by omega) firstBelow).2]
      omega
  · rcases Int.lt_or_eq_of_le second with secondBelow | rfl
    · rw [(lor_two_pow (by omega) secondBelow).1]
      omega
    · rw [lor_self]
      omega

end Bounds
end Bitwise

namespace Arithmetic

/-- The conjunction of words is that of the integers. -/
theorem toInt_and (a b : Int64) : (a &&& b).toInt = a.toInt.land b.toInt := by
  have lower := Bitwise.neg_two_pow_le_land a.le_toInt b.le_toInt
  have upper : a.toInt.land b.toInt ≤ 2 ^ 63 - 1 :=
    Bitwise.land_le (by decide) (Int.le_sub_one_of_lt a.toInt_lt) (Int.le_sub_one_of_lt b.toInt_lt)
  have word : Int64.ofInt (a.toInt.land b.toInt) = a &&& b := by
    rw [← Int64.toBitVec_inj, Int64.toBitVec_ofInt, Bitwise.ofInt_land, Int64.toBitVec_and,
      ← Int64.toBitVec_ofInt, ← Int64.toBitVec_ofInt, Int64.ofInt_toInt, Int64.ofInt_toInt]
  rw [← word, Int64.toInt_ofInt_of_le lower (by omega)]

/-- So is the disjunction. -/
theorem toInt_or (a b : Int64) : (a ||| b).toInt = a.toInt.lor b.toInt := by
  have lower := Bitwise.neg_two_pow_le_lor a.le_toInt b.le_toInt
  have upper := Bitwise.lor_lt_two_pow a.toInt_lt b.toInt_lt
  have word : Int64.ofInt (a.toInt.lor b.toInt) = a ||| b := by
    rw [← Int64.toBitVec_inj, Int64.toBitVec_ofInt, Bitwise.ofInt_lor, Int64.toBitVec_or,
      ← Int64.toBitVec_ofInt, ← Int64.toBitVec_ofInt, Int64.ofInt_toInt, Int64.ofInt_toInt]
  rw [← word, Int64.toInt_ofInt_of_le lower upper]

end Arithmetic
end GlyphStack
