/-!
# Decimal numbers

A decimal number is a natural number of digits times a power of ten.  The one
question asked of it here is whether double precision has room for it.  It has
not when the nearest double is infinite, which is so from halfway between the
greatest double and the next power of two.
-/

namespace GlyphStack

/-- The magnitude of a decimal number: all its digits as one number, and the
power of ten that it is multiplied by. -/
structure Decimal where
  /-- The digits before and after the point. -/
  digits : Nat
  /-- The power of ten. -/
  power : Int

namespace Decimal

/-- The least magnitude that double precision rounds to infinity. -/
def overflowBound : Nat := (Nat.pow 2 54 - 1) * Nat.pow 2 970

/-- Whether a decimal is beyond double precision.  The number of its digits
settles all but the magnitudes near the bound. -/
def overflows (decimal : Decimal) : Bool :=
  let places := (Nat.toDigits 10 decimal.digits).length
  if decimal.digits == 0 then false
  else if decimal.power + places > 400 then true
  else if decimal.power + places < 300 then false
  else if 0 ≤ decimal.power then
    decide (overflowBound ≤ decimal.digits * Nat.pow 10 decimal.power.toNat)
  else
    decide (overflowBound * Nat.pow 10 (-decimal.power).toNat ≤ decimal.digits)

end Decimal
end GlyphStack
