import GlyphStack.Lexer
import GlyphStack.Proofs.Bounds

/-!
# Literals within a width

What is read from a source text is never negative, so a width allows it exactly
up to one largest value: the bound of the width, or the largest 64-bit integer
where the width has no bound.

A number is checked digit by digit.  Two checks are made, one against overflow
and one against the bound of the width.  Together they amount to one comparison of
the exact number with the largest value, and the first of them fails only where
the width has no bound.
-/

namespace GlyphStack

namespace Width

/-- The largest literal that a width allows. -/
def largest (width : Width) : Int :=
  if width.bytes < 8 then 2 ^ (8 * width.bytes) else 2 ^ 63 - 1

theorem largest_of_lt
    {width : Width}
    (narrow : width.bytes < 8) :
    width.largest = 2 ^ (8 * width.bytes) :=
  if_pos narrow

theorem largest_of_le
    {width : Width}
    (wide : 8 ≤ width.bytes) :
    width.largest = 2 ^ 63 - 1 :=
  if_neg (by omega)

/-- A width with a bound leaves room for another digit. -/
theorem largest_le_of_lt
    {width : Width}
    (narrow : width.bytes < 8) :
    width.largest ≤ 2 ^ 56 := by
  rw [largest_of_lt narrow]
  have power : 2 ^ (8 * width.bytes) ≤ 2 ^ 56 := Nat.pow_le_pow_right (by decide) (by omega)
  exact_mod_cast power

theorem largest_lt (width : Width) : width.largest < 2 ^ 63 := by
  by_cases narrow : width.bytes < 8
  · have small := largest_le_of_lt narrow
    omega
  · rw [largest_of_le (by omega)]
    omega

theorem largest_nonneg (width : Width) : 0 ≤ width.largest := by
  by_cases narrow : width.bytes < 8
  · rw [largest_of_lt narrow]
    have power : 0 ≤ 2 ^ (8 * width.bytes) := Nat.zero_le _
    exact_mod_cast power
  · rw [largest_of_le (by omega)]
    omega

/-- A value that is not negative is within the bound exactly up to the largest
literal. -/
theorem admits_iff_le_largest
    {width : Width}
    {value : Int64}
    (nonneg : 0 ≤ value.toInt) :
    width.admits value ↔ value.toInt ≤ width.largest := by
  rw [admits_iff]
  by_cases narrow : width.bytes < 8
  · have magnitude : (value.toInt.natAbs : Int) = value.toInt := Int.natAbs_of_nonneg nonneg
    simp only [narrow, forall_const]
    rw [largest_of_lt narrow, ← magnitude]
    exact_mod_cast Iff.rfl
  · have fits := value.toInt_lt
    rw [largest_of_le (by omega)]
    simp only [narrow, false_implies, true_iff]
    omega

theorem check_of_le
    {width : Width}
    {value : Int64}
    (nonneg : 0 ≤ value.toInt)
    (within : value.toInt ≤ width.largest) :
    width.check value = .ok () :=
  (check_eq_ok_iff width value).mpr ((admits_iff_le_largest nonneg).mpr within)

theorem check_of_lt
    {width : Width}
    {value : Int64}
    (nonneg : 0 ≤ value.toInt)
    (beyond : width.largest < value.toInt) :
    width.check value = .error { value := value, bytes := width.bytes } := by
  have refused : ¬ width.admits value := by
    rw [admits_iff_le_largest nonneg]
    omega
  exact if_neg refused

end Width

theorem Instruction.push_of_le
    {width : Width}
    {value : Int64}
    (nonneg : 0 ≤ value.toInt)
    (within : value.toInt ≤ width.largest)
    (position : Position) :
    Instruction.push width value position =
      .ok { kind := .push, value := value, position := position } := by
  rw [push, Width.check_of_le nonneg within]
  rfl

theorem Instruction.push_of_lt
    {width : Width}
    {value : Int64}
    (nonneg : 0 ≤ value.toInt)
    (beyond : width.largest < value.toInt)
    (position : Position) :
    Instruction.push width value position =
      .error { value := value, bytes := width.bytes } := by
  rw [push, Width.check_of_lt nonneg beyond]
  rfl

namespace Lexer

theorem toInt_codePoint (c : Char) : (Int64.ofNat c.toNat).toInt = c.toNat := by
  have small : c.toNat < UInt32.size := c.val.toNat_lt
  exact Int64.toInt_ofNat_of_lt (by simp only [UInt32.size] at small; omega)

namespace State

variable {width : Width} {state : State}

/-- A letter that the width allows is pushed where it stands. -/
theorem emitChar_of_le
    {c : Char}
    (within : (c.toNat : Int) ≤ width.largest) :
    state.emitChar width c =
      .ok (state.emit
        { kind := .push, value := Int64.ofNat c.toNat, position := state.here }) := by
  have value_eq := toInt_codePoint c
  rw [emitChar, Instruction.push_of_le (by omega) (by omega)]

theorem emitChar_of_lt
    {c : Char}
    (beyond : width.largest < c.toNat) :
    state.emitChar width c =
      .error (.literal { value := Int64.ofNat c.toNat, bytes := width.bytes } state.here) := by
  have value_eq := toInt_codePoint c
  rw [emitChar, Instruction.push_of_lt (by omega) (by omega)]

/-- A number within the width can be turned into a push. -/
theorem flush_of_le
    {literal : Literal}
    (pending : state.pending = some literal)
    (nonneg : 0 ≤ literal.value.toInt)
    (within : literal.value.toInt ≤ width.largest) :
    state.flush width =
      .ok { state.emit
        { kind := .push, value := literal.value, position := literal.start } with
        reading := false, number := 0 } := by
  simp only [flush, pending, Instruction.push_of_le nonneg within]

theorem flush_of_none
    (idle : state.pending = none) :
    state.flush width = .ok state := by
  simp only [flush, idle]

/-- The number that a digit is appended to: the one being read, or zero from here
on. -/
def literal (state : State) : Literal :=
  state.pending.getD { value := 0, start := state.here }

/-- A state in which the given number is being read. -/
def withLiteral (state : State) (literal : Literal) : State :=
  { state with reading := true, number := literal.value, numberAt := literal.start }

@[simp]
theorem pending_withLiteral
    (state : State)
    (literal : Literal) :
    (state.withLiteral literal).pending = some literal := rfl

theorem beginNumber_eq (state : State) : state.beginNumber = state.withLiteral state.literal := by
  obtain ⟨here, mode, opened, reading, number, numberAt, emitted⟩ := state
  cases reading <;> rfl

theorem appendDigit_withLiteral
    {literal : Literal}
    {digit : Int64}
    (fits : ¬ literal.value > (Int64.maxValue - digit) / 10) :
    (state.withLiteral literal).appendDigit digit =
      state.withLiteral { value := literal.value * 10 + digit, start := literal.start } :=
  if_neg fits

/-- Reading a digit in terms of the number that it is appended to. -/
theorem readDigit_eq
    (width : Width)
    (state : State)
    (digit : Int64) :
    state.readDigit width digit =
      if state.literal.value > (Int64.maxValue - digit) / 10 then
        .error (.literal { value := state.literal.value, bytes := width.bytes } state.literal.start)
      else
        match width.check (state.literal.value * 10 + digit) with
        | .ok () =>
          .ok (state.withLiteral
            { value := state.literal.value * 10 + digit, start := state.literal.start })
        | .error overflow => .error (.literal overflow state.literal.start) := by
  rw [readDigit, beginNumber_eq]
  by_cases exceeds : state.literal.value > (Int64.maxValue - digit) / 10
  · rw [if_pos exceeds]
    exact if_pos exceeds
  · rw [if_neg exceeds]
    dsimp only
    rw [appendDigit_withLiteral exceeds]
    exact if_neg exceeds

/-- The check against overflow compares the exact number with the largest 64-bit
integer. -/
theorem overflow_check_iff
    {value : Int64}
    {digit : Nat}
    (isDigit : digit < 10) :
    value > (Int64.maxValue - Int64.ofNat digit) / 10 ↔
      2 ^ 63 - 1 < 10 * value.toInt + digit := by
  have digit_eq : (Int64.ofNat digit).toInt = digit := Int64.toInt_ofNat_of_lt (by omega)
  have room : (Int64.maxValue - Int64.ofNat digit).toInt = 2 ^ 63 - 1 - digit := by
    rw [Int64.toInt_sub_of_le, Int64.toInt_maxValue, digit_eq]
    · rw [Int64.le_iff_toInt_le, digit_eq]
      exact Int.natCast_nonneg digit
    · rw [Int64.le_iff_toInt_le, digit_eq, Int64.toInt_maxValue]
      omega
  have quotient : ((Int64.maxValue - Int64.ofNat digit) / 10).toInt =
      (2 ^ 63 - 1 - digit) / 10 := by
    rw [Int64.toInt_div_of_ne_right _ _ (by decide), room]
    exact Int.tdiv_eq_ediv_of_nonneg (by omega)
  rw [gt_iff_lt, Int64.lt_iff_toInt_lt, quotient]
  omega

theorem toInt_appended
    {value : Int64}
    {digit : Nat}
    (nonneg : 0 ≤ value.toInt)
    (fits : 10 * value.toInt + digit ≤ 2 ^ 63 - 1) :
    (value * 10 + Int64.ofNat digit).toInt = 10 * value.toInt + digit := by
  have appended : value * 10 + Int64.ofNat digit =
      Int64.ofInt (10 * value.toInt + digit) := by
    rw [Int64.ofInt_add, Int.mul_comm, Int64.ofInt_mul, Int64.ofInt_toInt]
    rfl
  rw [appended, Int64.toInt_ofInt_of_le (by omega) (by omega)]

/-- A digit is appended as long as the exact number stays within the width. -/
theorem readDigit_of_le
    {digit : Nat}
    (nonneg : 0 ≤ state.literal.value.toInt)
    (isDigit : digit < 10)
    (within : 10 * state.literal.value.toInt + digit ≤ width.largest) :
    ∃ value : Int64, value.toInt = 10 * state.literal.value.toInt + digit ∧
      state.readDigit width (Int64.ofNat digit) =
        .ok (state.withLiteral { value := value, start := state.literal.start }) := by
  have small := width.largest_lt
  have fits : 10 * state.literal.value.toInt + digit ≤ 2 ^ 63 - 1 := by omega
  have value_eq := toInt_appended nonneg fits
  have unguarded : ¬ state.literal.value > (Int64.maxValue - Int64.ofNat digit) / 10 := by
    rw [overflow_check_iff isDigit]
    omega
  refine ⟨state.literal.value * 10 + Int64.ofNat digit, value_eq, ?_⟩
  rw [readDigit_eq, if_neg unguarded, Width.check_of_le (by omega) (by omega)]

/-- What an overflow reports of a number that grows beyond the width: the number
with the digit, unless that exceeds 64 bits. -/
def reported (width : Width) (value : Int) (digit : Nat) : Int :=
  if width.bytes < 8 then 10 * value + digit else value

/-- A digit that takes the exact number beyond the width is an error at the start
of the number. -/
theorem readDigit_of_lt
    {digit : Nat}
    (nonneg : 0 ≤ state.literal.value.toInt)
    (fits : state.literal.value.toInt ≤ width.largest)
    (isDigit : digit < 10)
    (beyond : width.largest < 10 * state.literal.value.toInt + digit) :
    state.readDigit width (Int64.ofNat digit) =
      .error (.literal
        { value := Int64.ofInt (reported width state.literal.value.toInt digit),
          bytes := width.bytes }
        state.literal.start) := by
  rw [readDigit_eq]
  by_cases narrow : width.bytes < 8
  · have small := Width.largest_le_of_lt narrow
    have value_eq := toInt_appended nonneg
      (show 10 * state.literal.value.toInt + digit ≤ 2 ^ 63 - 1 by omega)
    have unguarded : ¬ state.literal.value > (Int64.maxValue - Int64.ofNat digit) / 10 := by
      rw [overflow_check_iff isDigit]
      omega
    rw [if_neg unguarded, Width.check_of_lt (by omega) (by omega), reported, if_pos narrow,
      ← value_eq, Int64.ofInt_toInt]
  · have guarded : state.literal.value > (Int64.maxValue - Int64.ofNat digit) / 10 := by
      rw [overflow_check_iff isDigit, ← Width.largest_of_le (Nat.not_lt.mp narrow)]
      exact beyond
    rw [if_pos guarded, reported, if_neg narrow, Int64.ofInt_toInt]

end State
end Lexer
end GlyphStack
