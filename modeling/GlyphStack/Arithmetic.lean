import GlyphStack.Fault

/-!
# Arithmetic on values

Values are 64-bit integers, and no operation wraps around: a result that does
not fit is an integer overflow.  Division rounds down, so a remainder has the
sign of the divisor.
-/

namespace GlyphStack
namespace Arithmetic

/-- Whether a value counts as true. -/
def truthy (value : Int64) : Bool :=
  value != 0

/-- One for true and zero for false. -/
def ofBool (condition : Bool) : Int64 :=
  if condition then 1 else 0

/-- An exact result, if it fits 64 bits. -/
def narrow (result : Int) : Except Fault Int64 :=
  if Int64.minValue.toInt ≤ result ∧ result ≤ Int64.maxValue.toInt then
    .ok (Int64.ofInt result)
  else
    .error .integerOverflow

/-- The quotient rounded down.  Machine division rounds toward zero, so a
quotient of operands with different signs that leaves a remainder is one too
large. -/
def floorDiv (a b : Int64) : Except Fault Int64 :=
  if b = 0 then
    .error .divisionByZero
  else if a = Int64.minValue ∧ b = -1 then
    .error .integerOverflow
  else
    let quotient := a / b
    if a % b ≠ 0 ∧ decide (a < 0) ≠ decide (b < 0) then
      .ok (quotient - 1)
    else
      .ok quotient

/-- The remainder of the quotient rounded down. -/
def floorMod (a b : Int64) : Except Fault Int64 :=
  if b = 0 then
    .error .divisionByZero
  else
    let remainder := a % b
    if remainder ≠ 0 ∧ decide (remainder < 0) ≠ decide (b < 0) then
      .ok (remainder + b)
    else
      .ok remainder

/-- The negation of a value.  The least value has none. -/
def negate (a : Int64) : Except Fault Int64 :=
  if a = Int64.minValue then .error .integerOverflow else .ok (-a)

/-- The operation of a kind that computes with the top value. -/
def unary? : Kind -> Option (Int64 -> Except Fault Int64)
  | .not => some fun a => .ok (ofBool (a == 0))
  | .negate => some negate
  | _ => none

/-- The operation of a kind that computes with the two top values. -/
def binary? : Kind -> Option (Int64 -> Int64 -> Except Fault Int64)
  | .add => some fun a b => narrow (a.toInt + b.toInt)
  | .subtract => some fun a b => narrow (a.toInt - b.toInt)
  | .multiply => some fun a b => narrow (a.toInt * b.toInt)
  | .divide => some floorDiv
  | .modulo => some floorMod
  | .and => some fun a b => .ok (a &&& b)
  | .or => some fun a b => .ok (a ||| b)
  | .equality => some fun a b => .ok (ofBool (a == b))
  | .greaterThan => some fun a b => .ok (ofBool (decide (b < a)))
  | .lessThan => some fun a b => .ok (ofBool (decide (a < b)))
  | _ => none

end Arithmetic
end GlyphStack
