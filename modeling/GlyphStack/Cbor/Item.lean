import GlyphStack.Cbor.Head

/-!
# CBOR items

A well-formed item is read with everything that it contains.  Arrays and maps
may be nested to a limited number of levels and hold a limited number of
items, which also bounds the work of reading.  The limits are up to the reader.
-/

namespace GlyphStack
namespace Cbor

/-- A CBOR item. -/
inductive Item where
  /-- An integer from zero up. -/
  | unsigned (value : Nat)
  /-- The integer `-1 - value`. -/
  | negative (value : Nat)
  /-- A string of bytes. -/
  | bytes (content : List UInt8)
  /-- A string of text, in the pieces in which it was written. -/
  | text (pieces : List (List UInt8))
  /-- A sequence of items. -/
  | array (items : List Item)
  /-- A sequence of pairs of items. -/
  | map (entries : List (Item × Item))
  /-- A number in front of an item. -/
  | tag (number : Nat) (content : Item)
  /-- A simple value; four of them are false, true, null and undefined. -/
  | simple (value : Nat)
  /-- A floating-point number. -/
  | float (bits : Nat)
  deriving Repr, Inhabited

/-- A reader takes a value from the start of its input and gives the rest. -/
abbrev Reader (α : Type) := List UInt8 -> Option (α × List UInt8)

/-- How deeply items may be nested and how large they may be. -/
structure Limits where
  /-- The levels to which arrays and maps may be nested. -/
  levels : Nat
  /-- The number of items that an array may hold. -/
  items : Nat
  /-- The number of pairs that a map may hold. -/
  pairs : Nat
  deriving DecidableEq, Repr

/-- The limits where no others are chosen. -/
def Limits.standard : Limits where
  levels := 32
  items := 131072
  pairs := 131072

/-- Read a number of items. -/
def readCount (read : Reader Item) : Nat -> Reader (List Item)
  | 0, input => some ([], input)
  | count + 1, input => do
    let (item, rest) <- read input
    let (items, after) <- readCount read count rest
    return (item :: items, after)

/-- Read items up to a break, for which there may be no more than the given
number. -/
def readOpen (read : Reader Item) : (room : Nat) -> Reader (List Item)
  | room, input =>
    match input with
    | [] => none
    | byte :: rest =>
      if byte = breakByte then
        some ([], rest)
      else
        match room with
        | 0 => none
        | room + 1 => do
          let (item, rest) <- read input
          let (items, after) <- readOpen read room rest
          return (item :: items, after)

/-- Read the pieces of a string of open length.  Every piece is a string of the
same major type with a length of its own. -/
def readPieces (major : Major) : (room : Nat) -> Reader (List (List UInt8))
  | room, input =>
    match input with
    | [] => none
    | byte :: rest =>
      if byte = breakByte then
        some ([], rest)
      else
        match room with
        | 0 => none
        | room + 1 => do
          let (head, rest) <- Head.read input
          if head.major = major ∧ head.info ≠ openLength then
            let (piece, rest) <- take? head.argument rest
            let (pieces, after) <- readPieces major room rest
            return (piece :: pieces, after)
          else
            none

/-- The pieces of a string whose head was read.  Every piece takes at least one
byte, so the input bounds their number. -/
def readString (head : Head) : Reader (List (List UInt8)) := fun input =>
  if head.info = openLength then
    readPieces head.major input.length input
  else do
    let (content, rest) <- take? head.argument input
    return ([content], rest)

/-- Pair up the items of a map.  An item without a partner makes no map. -/
def pairs : List Item -> Option (List (Item × Item))
  | [] => some []
  | [_] => none
  | key :: value :: rest => do
    let entries <- pairs rest
    return (key, value) :: entries

/-- The items of an array or map whose head was read.  Every unit of its size
stands for the given number of items, and its size is limited. -/
def readMembers (read : Reader Item) (head : Head) (perUnit limit : Nat) :
    Reader (List Item) := fun input =>
  if head.info = openLength then
    readOpen read (perUnit * limit) input
  else if head.argument ≤ limit then
    readCount read (perUnit * head.argument) input
  else
    none

/-- Read an item that is not a tag.  What an array or map contains is read by
the given reader; without one the item would be nested too deeply. -/
def readUntagged (limits : Limits) (inner : Option (Reader Item)) : Reader Item := fun input => do
  let (head, rest) <- Head.read input
  match head.major with
  | .unsigned => return (.unsigned head.argument, rest)
  | .negative => return (.negative head.argument, rest)
  | .bytes =>
    let (pieces, after) <- readString head rest
    return (.bytes pieces.flatten, after)
  | .text =>
    let (pieces, after) <- readString head rest
    return (.text pieces, after)
  | .array =>
    let read <- inner
    let (items, after) <- readMembers read head 1 limits.items rest
    return (.array items, after)
  | .map =>
    let read <- inner
    let (items, after) <- readMembers read head 2 limits.pairs rest
    let entries <- pairs items
    return (.map entries, after)
  | .tag => none
  | .simple =>
    if head.info ≤ 24 then
      return (.simple head.argument, rest)
    else
      return (.float head.argument, rest)

/-- Whether the next item is a tag. -/
def startsWithTag : List UInt8 -> Bool
  | [] => false
  | initial :: _ => Major.ofByte initial == .tag

/-- Read an item.  A tag directly inside a tag takes up a level of nesting, as an
array or map does. -/
def readTagged (limits : Limits) (inner : Option (Reader Item)) : Reader Item := fun input =>
  if startsWithTag input then do
    let (head, rest) <- Head.read input
    if startsWithTag rest then
      let read <- inner
      let (content, after) <- read rest
      return (.tag head.argument content, after)
    else
      let (content, after) <- readUntagged limits inner rest
      return (.tag head.argument content, after)
  else
    readUntagged limits inner input

/-- Read an item with the given number of levels left for nesting. -/
def readItem (limits : Limits) : (levels : Nat) -> Reader Item
  | 0 => readTagged limits none
  | levels + 1 => readTagged limits (some (readItem limits levels))

/-- The single item that some bytes spell, unless it exceeds the limits. -/
def Item.ofBytes? (limits : Limits) (input : List UInt8) : Option Item :=
  match readItem limits limits.levels input with
  | some (item, []) => some item
  | _ => none

end Cbor
end GlyphStack
