/-!
# Heads of CBOR items

Every CBOR item starts with a head: a major type, five bits of additional
information and an argument.  Small arguments stand in the additional
information; larger ones follow in one, two, four or eight bytes, most
significant byte first.
-/

namespace GlyphStack
namespace Cbor

/-- The major types of items. -/
inductive Major where
  /-- An integer from zero up. -/
  | unsigned
  /-- An integer below zero. -/
  | negative
  /-- A string of bytes. -/
  | bytes
  /-- A string of text. -/
  | text
  /-- A sequence of items. -/
  | array
  /-- A sequence of pairs of items. -/
  | map
  /-- A number in front of another item. -/
  | tag
  /-- A simple value or a floating-point number. -/
  | simple
  deriving DecidableEq, Repr

namespace Major

/-- The three leading bits of a head. -/
def bits : Major -> Nat
  | .unsigned => 0
  | .negative => 1
  | .bytes => 2
  | .text => 3
  | .array => 4
  | .map => 5
  | .tag => 6
  | .simple => 7

/-- The major type of an initial byte. -/
def ofByte (initial : UInt8) : Major :=
  match initial.toNat / 32 with
  | 0 => .unsigned
  | 1 => .negative
  | 2 => .bytes
  | 3 => .text
  | 4 => .array
  | 5 => .map
  | 6 => .tag
  | _ => .simple

end Major

/-- The head of an item. -/
structure Head where
  /-- The major type. -/
  major : Major
  /-- The additional information. -/
  info : Nat
  /-- The argument.  Where the additional information leaves the length open, it
  has no meaning. -/
  argument : Nat
  deriving DecidableEq, Repr

/-- The additional information that leaves a length open. -/
def openLength : Nat := 31

/-- The byte that ends an item of open length. -/
def breakByte : UInt8 := 0xFF

/-- A number in the given number of bytes, most significant first. -/
def bigEndian : (count : Nat) -> (value : Nat) -> List UInt8
  | 0, _ => []
  | count + 1, value => bigEndian count (value / 256) ++ [UInt8.ofNat (value % 256)]

/-- The number that bytes spell, most significant first. -/
def ofBigEndian (bytes : List UInt8) : Nat :=
  bytes.foldl (fun value byte => value * 256 + byte.toNat) 0

/-- The first bytes of some input and the rest, if there are as many. -/
def take? : (count : Nat) -> List UInt8 -> Option (List UInt8 × List UInt8)
  | 0, input => some ([], input)
  | _ + 1, [] => none
  | count + 1, byte :: input =>
    (take? count input).map fun (bytes, rest) => (byte :: bytes, rest)

namespace Head

/-- The shortest head with the given argument. -/
def write (major : Major) (argument : Nat) : List UInt8 :=
  let lead := 32 * major.bits
  if argument < 24 then
    [UInt8.ofNat (lead + argument)]
  else if argument < UInt8.size then
    UInt8.ofNat (lead + 24) :: bigEndian 1 argument
  else if argument < UInt16.size then
    UInt8.ofNat (lead + 25) :: bigEndian 2 argument
  else if argument < UInt32.size then
    UInt8.ofNat (lead + 26) :: bigEndian 4 argument
  else
    UInt8.ofNat (lead + 27) :: bigEndian 8 argument

/-- The number of bytes that follow an initial byte with the given additional
information, if it is in use. -/
def followers? (info : Nat) : Option Nat :=
  if info < 24 then some 0
  else if info = 24 then some 1
  else if info = 25 then some 2
  else if info = 26 then some 4
  else if info = 27 then some 8
  else none

/-- Whether the length of items of a major type may be left open. -/
def mayBeOpen : Major -> Bool
  | .bytes | .text | .array | .map => true
  | .unsigned | .negative | .tag | .simple => false

/-- Read a head, in the shortest form or not.  A simple value below 32 must not
be written in two bytes. -/
def read : List UInt8 -> Option (Head × List UInt8)
  | [] => none
  | initial :: rest =>
    let major := Major.ofByte initial
    let info := initial.toNat % 32
    if info = openLength then
      if mayBeOpen major then
        some ({ major := major, info := info, argument := 0 }, rest)
      else
        none
    else do
      let count <- followers? info
      let (following, after) <- take? count rest
      let argument := if count = 0 then info else ofBigEndian following
      if major = .simple ∧ count = 1 ∧ argument < 32 then
        none
      else
        some ({ major := major, info := info, argument := argument }, after)

end Head

end Cbor
end GlyphStack
