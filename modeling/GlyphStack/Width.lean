/-!
# Byte widths

A byte width limits the magnitude of the values that a machine may hold.  A
width of `n` bytes admits the values from `-2^(8n)` to `2^(8n)`, both ends
included.  From eight bytes on there is no limit beyond the 64-bit range of the
values themselves.
-/

namespace GlyphStack

/-- A number of bytes, at least one. -/
structure Width where
  /-- The number of bytes. -/
  bytes : Nat
  /-- There is at least one byte. -/
  positive : 0 < bytes
  deriving DecidableEq, Repr

/-- A value beyond the bound of its byte width. -/
structure Overflow where
  /-- The value that does not fit. -/
  value : Int64
  /-- The byte width that it does not fit. -/
  bytes : Nat
  deriving DecidableEq, Repr

/-- The wording of an overflow. -/
def Overflow.message (overflow : Overflow) : String :=
  "value " ++ toString overflow.value.toInt ++ " exceeds max byte size of " ++
    toString overflow.bytes

namespace Width

/-- The width used when none is asked for. -/
def standard : Width :=
  { bytes := 4, positive := by decide }

/-- The widest width that a configuration may ask for. -/
def widest : Nat := 8

/-- The width meant by a number: the number itself if it is positive, and the
standard width otherwise. -/
def ofInt (bytes : Int) : Width :=
  if positive : 0 < bytes then
    { bytes := bytes.toNat, positive := by omega }
  else
    standard

/-- The largest magnitude that a width admits, or nothing if it admits every
value. -/
def bound? (width : Width) : Option Nat :=
  if width.bytes < widest then some (Nat.pow 2 (8 * width.bytes)) else none

/-- Whether a value lies within the bound of a width. -/
def admits (width : Width) (value : Int64) : Bool :=
  match width.bound? with
  | none => true
  | some bound => value.toInt.natAbs ≤ bound

/-- Accept a value within the bound, and report an overflow otherwise. -/
def check (width : Width) (value : Int64) : Except Overflow Unit :=
  if width.admits value then
    .ok ()
  else
    .error { value := value, bytes := width.bytes }

@[simp]
theorem ofInt_of_pos
    {bytes : Int}
    (positive : 0 < bytes) :
    (ofInt bytes).bytes = bytes.toNat := by
  simp [ofInt, positive]

@[simp]
theorem ofInt_of_nonpos
    {bytes : Int}
    (nonpositive : bytes ≤ 0) :
    ofInt bytes = standard := by
  simp [ofInt, Int.not_lt.mpr nonpositive]

end Width

/-- A byte width that no configuration may ask for. -/
structure InvalidWidth where
  /-- The width asked for. -/
  bytes : Int
  deriving DecidableEq, Repr

/-- The wording of an invalid byte width. -/
def InvalidWidth.message (invalid : InvalidWidth) : String :=
  "invalid byte width: " ++ toString invalid.bytes ++ " (want 1-" ++
    toString Width.widest ++ ")"

/-- Accept the widths from one byte to the widest. -/
def Width.validate (bytes : Int) : Except InvalidWidth Unit :=
  if 1 ≤ bytes ∧ bytes ≤ Width.widest then
    .ok ()
  else
    .error { bytes := bytes }

end GlyphStack
