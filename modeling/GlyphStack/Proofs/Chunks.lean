import GlyphStack.Cbor.Item
import Mathlib.Algebra.Group.Nat.Defs

/-!
# Items that are read back

Bytes that are written in canonical form are read back, whatever follows them.  A
chunk pairs some bytes with the item that they are read as.  Chunks are put together
as items are: from chunks that read as they say an array or a map is made that does
so too, if the limits leave room for its members and for one more level.
-/

namespace GlyphStack
namespace Cbor

/-! ## Heads -/

@[simp] theorem length_bigEndian
    (count value : Nat) :
    (bigEndian count value).length = count := by
  induction count generalizing value with
  | zero => rfl
  | succ count inductionHypothesis => simp [bigEndian, inductionHypothesis]

theorem ofBigEndian_bigEndian
    {count value : Nat}
    (fits : value < 256 ^ count) :
    ofBigEndian (bigEndian count value) = value := by
  induction count generalizing value with
  | zero =>
    rw [Nat.pow_zero, Nat.lt_one_iff] at fits
    rw [fits]
    rfl
  | succ count inductionHypothesis =>
    rw [Nat.pow_succ] at fits
    have quotient := inductionHypothesis (Nat.div_lt_of_lt_mul (Nat.mul_comm _ _ ▸ fits))
    rw [ofBigEndian] at quotient
    have remainder : (UInt8.ofNat (value % 256)).toNat = value % 256 :=
      UInt8.toNat_ofNat_of_lt' (Nat.mod_lt _ (by decide))
    rw [bigEndian, ofBigEndian, List.foldl_append, quotient]
    simp only [List.foldl_cons, List.foldl_nil, remainder]
    omega

theorem take?_append
    (bytes rest : List UInt8) :
    take? bytes.length (bytes ++ rest) = some (bytes, rest) := by
  induction bytes with
  | nil => rfl
  | cons byte bytes inductionHypothesis => simp [take?, inductionHypothesis]

namespace Head

/-- The initial byte of a head. -/
def initial (major : Major) (info : Nat) : UInt8 :=
  UInt8.ofNat (32 * major.bits + info)

theorem toNat_initial
    (major : Major)
    {info : Nat}
    (fits : info < 32) :
    (initial major info).toNat = 32 * major.bits + info := by
  have bits_le : major.bits ≤ 7 := by cases major <;> decide
  exact UInt8.toNat_ofNat_of_lt' (by simp only [UInt8.size]; omega)

theorem ofByte_initial
    (major : Major)
    {info : Nat}
    (fits : info < 32) :
    Major.ofByte (initial major info) = major := by
  have quotient : (initial major info).toNat / 32 = major.bits := by
    rw [toNat_initial major fits]
    omega
  rw [Major.ofByte, quotient]
  cases major <;> rfl

/-- The additional information of the shortest head with an argument. -/
def shortestInfo (argument : Nat) : Nat :=
  if argument < 24 then argument
  else if argument < UInt8.size then 24
  else if argument < UInt16.size then 25
  else if argument < UInt32.size then 26
  else 27

theorem shortestInfo_ne_openLength (argument : Nat) :
    shortestInfo argument ≠ openLength := by
  unfold shortestInfo openLength
  split
  · omega
  · repeat' split
    all_goals decide

/-- A head is read whose argument stands in the initial byte. -/
theorem read_initial
    (major : Major)
    {argument : Nat}
    (small : argument < 24)
    (rest : List UInt8) :
    read (initial major argument :: rest) =
      some ({ major := major, info := argument, argument := argument }, rest) := by
  have info_eq : (initial major argument).toNat % 32 = argument := by
    rw [toNat_initial major (by omega)]
    omega
  have closed : argument ≠ openLength := by
    unfold openLength
    omega
  simp [read, ofByte_initial major (show argument < 32 by omega), info_eq, closed, followers?,
    small, take?]

/-- A head is read whose argument follows the initial byte. -/
theorem read_following
    {major : Major}
    (notSimple : major ≠ .simple)
    {info count : Nat}
    (fits : info < openLength)
    (positive : count ≠ 0)
    (followers : followers? info = some count)
    {argument : Nat}
    (argument_lt : argument < 256 ^ count)
    (rest : List UInt8) :
    read (initial major info :: (bigEndian count argument ++ rest)) =
      some ({ major := major, info := info, argument := argument }, rest) := by
  unfold openLength at fits
  have info_eq : (initial major info).toNat % 32 = info := by
    rw [toNat_initial major (by omega)]
    omega
  have closed : info ≠ openLength := by
    unfold openLength
    omega
  have taken := take?_append (bigEndian count argument) rest
  rw [length_bigEndian] at taken
  simp [read, ofByte_initial major (show info < 32 by omega), info_eq, closed, followers, taken,
    positive, ofBigEndian_bigEndian argument_lt, notSimple]

/-- The shortest head is read back. -/
theorem read_write
    {major : Major}
    {argument : Nat}
    (fits : argument < 2 ^ 64)
    (short : major = .simple -> argument < 24)
    (rest : List UInt8) :
    read (write major argument ++ rest) =
      some ({ major := major, info := shortestInfo argument, argument := argument }, rest) := by
  unfold write shortestInfo
  by_cases small : argument < 24
  · simp only [if_pos small]
    exact read_initial major small rest
  have notSimple : major ≠ .simple := fun isSimple => small (short isSimple)
  simp only [if_neg small]
  split
  · exact read_following notSimple (by decide) (by decide) rfl (by assumption) rest
  split
  · exact read_following notSimple (by decide) (by decide) rfl (by assumption) rest
  split
  · exact read_following notSimple (by decide) (by decide) rfl (by assumption) rest
  · exact read_following notSimple (by decide) (by decide) rfl fits rest

theorem startsWithTag_write
    {major : Major}
    (notTag : major ≠ .tag)
    (argument : Nat)
    (rest : List UInt8) :
    startsWithTag (write major argument ++ rest) = false := by
  have starts : ∀ info bytes, info < 32 ->
      startsWithTag (initial major info :: bytes) = false := by
    intro info bytes fits
    rw [startsWithTag, ofByte_initial major fits]
    simpa using notTag
  unfold write
  dsimp only
  split
  · exact starts _ _ (by omega)
  split
  · exact starts _ _ (by decide)
  split
  · exact starts _ _ (by decide)
  split
  · exact starts _ _ (by decide)
  · exact starts _ _ (by decide)

end Head

/-! ## Chunks -/

/-- Some bytes with the item that they are read as. -/
structure Chunk where
  /-- The bytes. -/
  bytes : List UInt8
  /-- The item. -/
  item : Item

namespace Chunk

/-- A chunk is read as it says, with the given number of levels left for nesting
and whatever follows it. -/
def Reads (limits : Limits) (levels : Nat) (chunk : Chunk) : Prop :=
  ∀ rest, readItem limits levels (chunk.bytes ++ rest) = some (chunk.item, rest)

/-- An integer from zero up. -/
def unsigned (value : Nat) : Chunk where
  bytes := Head.write .unsigned value
  item := .unsigned value

/-- An integer below zero. -/
def negative (value : Nat) : Chunk where
  bytes := Head.write .negative value
  item := .negative value

/-- A simple value. -/
def simple (value : Nat) : Chunk where
  bytes := Head.write .simple value
  item := .simple value

/-- A string of text in one piece. -/
def text (content : List UInt8) : Chunk where
  bytes := Head.write .text content.length ++ content
  item := .text [content]

/-- An array. -/
def array (members : List Chunk) : Chunk where
  bytes := Head.write .array members.length ++ members.flatMap bytes
  item := .array (members.map item)

/-- A map. -/
def map (entries : List (Chunk × Chunk)) : Chunk where
  bytes := Head.write .map entries.length ++
    entries.flatMap fun (key, value) => key.bytes ++ value.bytes
  item := .map (entries.map fun (key, value) => (key.item, value.item))

end Chunk

/-- What reads the members of an item. -/
def inner (limits : Limits) : (levels : Nat) -> Option (Reader Item)
  | 0 => none
  | levels + 1 => some (readItem limits levels)

theorem readItem_eq_readTagged
    (limits : Limits)
    (levels : Nat) :
    readItem limits levels = readTagged limits (inner limits levels) := by
  cases levels <;> rfl

/-- What follows a written head is read as the head says. -/
theorem readItem_write
    {major : Major}
    (notTag : major ≠ .tag)
    {argument : Nat}
    (limits : Limits)
    (levels : Nat)
    (rest : List UInt8) :
    readItem limits levels (Head.write major argument ++ rest) =
      readUntagged limits (inner limits levels) (Head.write major argument ++ rest) := by
  rw [readItem_eq_readTagged, readTagged, Head.startsWithTag_write notTag]
  rfl

namespace Chunk

variable {limits : Limits} {levels : Nat}

theorem reads_unsigned
    {value : Nat}
    (fits : value < 2 ^ 64) :
    (unsigned value).Reads limits levels := by
  intro rest
  simp only [unsigned]
  rw [readItem_write (by decide), readUntagged, Head.read_write fits (by simp)]
  rfl

theorem reads_negative
    {value : Nat}
    (fits : value < 2 ^ 64) :
    (negative value).Reads limits levels := by
  intro rest
  simp only [negative]
  rw [readItem_write (by decide), readUntagged, Head.read_write fits (by simp)]
  rfl

theorem reads_simple
    {value : Nat}
    (small : value < 24) :
    (simple value).Reads limits levels := by
  intro rest
  simp only [simple]
  rw [readItem_write (by decide), readUntagged, Head.read_write (by omega) (fun _ => small)]
  have info_le : Head.shortestInfo value ≤ 24 := by
    rw [Head.shortestInfo, if_pos small]
    omega
  simp [info_le]

theorem reads_text
    {content : List UInt8}
    (fits : content.length < 2 ^ 64) :
    (text content).Reads limits levels := by
  intro rest
  simp only [text, List.append_assoc]
  rw [readItem_write (by decide), readUntagged, Head.read_write fits (by simp)]
  simp [readString, Head.shortestInfo_ne_openLength, take?_append]

/-- Members are read one after the other. -/
theorem readCount_eq
    {members : List Chunk}
    (reads : ∀ member ∈ members, member.Reads limits levels)
    (rest : List UInt8) :
    readCount (readItem limits levels) members.length (members.flatMap bytes ++ rest) =
      some (members.map item, rest) := by
  induction members with
  | nil => rfl
  | cons member members inductionHypothesis =>
    have first := reads member List.mem_cons_self (members.flatMap bytes ++ rest)
    have others := inductionHypothesis fun other listed =>
      reads other (List.mem_cons_of_mem _ listed)
    rw [List.length_cons, List.flatMap_cons, List.append_assoc, readCount, first]
    simp [others]

theorem reads_array
    {members : List Chunk}
    (fits : members.length < 2 ^ 64)
    (few : members.length ≤ limits.items)
    (reads : ∀ member ∈ members, member.Reads limits levels) :
    (array members).Reads limits (levels + 1) := by
  intro rest
  simp only [array, List.append_assoc]
  rw [readItem_write (by decide), readUntagged, Head.read_write fits (by simp)]
  simp [inner, readMembers, Head.shortestInfo_ne_openLength, few, readCount_eq reads]

/-- The chunks of a map, keys and values in turn. -/
def alternating (entries : List (Chunk × Chunk)) : List Chunk :=
  entries.flatMap fun (key, value) => [key, value]

theorem length_alternating (entries : List (Chunk × Chunk)) :
    (alternating entries).length = 2 * entries.length := by
  induction entries with
  | nil => rfl
  | cons entry entries inductionHypothesis =>
    simp only [alternating, List.flatMap_cons, List.length_append, List.length_cons,
      List.length_nil] at inductionHypothesis ⊢
    omega

theorem flatMap_alternating (entries : List (Chunk × Chunk)) :
    (alternating entries).flatMap bytes =
      entries.flatMap fun (key, value) => key.bytes ++ value.bytes := by
  induction entries with
  | nil => rfl
  | cons entry entries inductionHypothesis =>
    rw [alternating, List.flatMap_cons, List.flatMap_append, ← alternating, inductionHypothesis]
    simp

/-- The items of a map, keys and values in turn, are paired up again. -/
theorem pairs_alternating (entries : List (Chunk × Chunk)) :
    pairs ((alternating entries).map item) =
      some (entries.map fun (key, value) => (key.item, value.item)) := by
  induction entries with
  | nil => rfl
  | cons entry entries inductionHypothesis =>
    change pairs (entry.1.item :: entry.2.item :: (alternating entries).map item) = _
    simp [pairs, inductionHypothesis]

theorem reads_map
    {entries : List (Chunk × Chunk)}
    (fits : entries.length < 2 ^ 64)
    (few : entries.length ≤ limits.pairs)
    (reads : ∀ entry ∈ entries, entry.1.Reads limits levels ∧ entry.2.Reads limits levels) :
    (map entries).Reads limits (levels + 1) := by
  -- A map is read as a sequence of items first, and these are paired up afterwards.
  have members_read : ∀ member ∈ alternating entries, member.Reads limits levels := by
    intro member listed
    obtain ⟨entry, entry_listed, chosen⟩ := List.mem_flatMap.mp listed
    have entry_reads := reads entry entry_listed
    simp only [List.mem_cons, List.not_mem_nil, or_false] at chosen
    rcases chosen with rfl | rfl
    · exact entry_reads.1
    · exact entry_reads.2
  intro rest
  have counted := readCount_eq members_read rest
  rw [length_alternating, flatMap_alternating] at counted
  simp only [map, List.append_assoc]
  rw [readItem_write (by decide), readUntagged, Head.read_write fits (by simp)]
  simp only [inner, readMembers, Head.shortestInfo_ne_openLength, if_false, Option.bind_eq_bind,
    Option.bind_some, if_pos few, counted, pairs_alternating]
  rfl

end Chunk

end Cbor
end GlyphStack
