import GlyphStack.Cbor.Item
import Mathlib.Algebra.Group.Nat.Defs

/-!
# Readers look at nothing behind

A reader takes an item from the start of its input and looks at nothing behind it: what is
added to the input is left over with the rest.  Nor does it matter which limits are set, if
the item is within them.  So bytes spell one item at most, and no bytes that spell an item
are the beginning of others that do: an item has an end of its own.
-/

namespace GlyphStack
namespace Cbor

/-- What a reader takes from its input another one takes as well, whatever is added to the
input: it is left over with the rest. -/
def Reader.Persists {α : Type} (read other : Reader α) : Prop :=
  ∀ ⦃input value rest⦄, read input = some (value, rest) ->
    ∀ more, other (input ++ more) = some (value, rest ++ more)

/-- A reader looks at nothing behind what it takes. -/
def Reader.Local {α : Type} (read : Reader α) : Prop :=
  read.Persists read

theorem local_take? (count : Nat) : Reader.Local (take? count) := by
  intro input taken rest took more
  induction count generalizing input taken with
  | zero =>
    cases took
    rfl
  | succ count inductionHypothesis =>
    cases input with
    | nil => cases took
    | cons byte input =>
      simp only [take?, Option.map_eq_some_iff] at took
      obtain ⟨⟨taken', rest'⟩, took, equal⟩ := took
      cases equal
      simp [take?, inductionHypothesis took]

theorem Head.local_read : Reader.Local read := by
  intro input head rest read_eq more
  cases input with
  | nil => cases read_eq
  | cons initial input =>
    simp only [read, List.cons_append] at read_eq ⊢
    split at read_eq
    · split at read_eq
      · next isOpen mayBeOpen =>
        cases read_eq
        rw [if_pos isOpen, if_pos mayBeOpen]
      · cases read_eq
    · next isClosed =>
      rw [if_neg isClosed]
      simp only [Option.bind_eq_bind, Option.bind_eq_some_iff] at read_eq ⊢
      obtain ⟨count, count_eq, ⟨following, after⟩, took, read_eq⟩ := read_eq
      refine ⟨count, count_eq, (following, after ++ more), local_take? _ took more, ?_⟩
      dsimp only at read_eq ⊢
      generalize (if count = 0 then initial.toNat % 32 else ofBigEndian following) = argument
        at read_eq ⊢
      split at read_eq
      · cases read_eq
      · next sound =>
        cases read_eq
        rw [if_neg sound]

/-- More input leaves more room for pieces, and it is not used. -/
theorem local_readPieces
    {major : Major}
    {room larger : Nat}
    (room_le : room ≤ larger)
    {input rest : List UInt8}
    {pieces : List (List UInt8)}
    (read_eq : readPieces major room input = some (pieces, rest))
    (more : List UInt8) :
    readPieces major larger (input ++ more) = some (pieces, rest ++ more) := by
  induction room generalizing larger input pieces with
  | zero =>
    unfold readPieces at read_eq ⊢
    cases input with
    | nil => cases read_eq
    | cons byte input =>
      simp only [List.cons_append] at read_eq ⊢
      split at read_eq <;> cases read_eq
      next isBreak => rw [if_pos isBreak]
  | succ room inductionHypothesis =>
    obtain ⟨larger, rfl⟩ := Nat.exists_eq_add_of_lt room_le
    unfold readPieces at read_eq ⊢
    cases input with
    | nil => cases read_eq
    | cons byte input =>
      simp only [List.cons_append] at read_eq ⊢
      split at read_eq
      · next isBreak =>
        cases read_eq
        rw [if_pos isBreak]
      · next goesOn =>
        rw [if_neg goesOn]
        simp only [Option.bind_eq_bind, Option.bind_eq_some_iff] at read_eq ⊢
        obtain ⟨⟨head, after⟩, head_read, read_eq⟩ := read_eq
        refine ⟨(head, after ++ more), Head.local_read head_read more, ?_⟩
        dsimp only at read_eq ⊢
        split at read_eq
        · next isPiece =>
          rw [if_pos isPiece]
          simp only [Option.bind_eq_some_iff] at read_eq ⊢
          obtain ⟨⟨piece, after'⟩, took, ⟨pieces', rest'⟩, others, equal⟩ := read_eq
          cases equal
          exact ⟨(piece, after' ++ more), local_take? _ took more,
            (pieces', rest' ++ more), inductionHypothesis (by omega) others, rfl⟩
        · cases read_eq

theorem local_readString (head : Head) : Reader.Local (readString head) := by
  intro input pieces rest read_eq more
  unfold readString at read_eq ⊢
  split at read_eq
  · next isOpen =>
    rw [if_pos isOpen]
    exact local_readPieces (by simp) read_eq more
  · next isClosed =>
    rw [if_neg isClosed]
    simp only [Option.bind_eq_bind, Option.bind_eq_some_iff] at read_eq ⊢
    obtain ⟨⟨content, after⟩, took, equal⟩ := read_eq
    cases equal
    exact ⟨(content, after ++ more), local_take? _ took more, rfl⟩

section Persists

variable {read other : Reader Item}

theorem persists_readCount
    (persists : read.Persists other)
    (count : Nat) :
    Reader.Persists (readCount read count) (readCount other count) := by
  intro input items rest read_eq more
  induction count generalizing input items with
  | zero =>
    cases read_eq
    rfl
  | succ count inductionHypothesis =>
    simp only [readCount, Option.bind_eq_bind, Option.bind_eq_some_iff] at read_eq ⊢
    obtain ⟨⟨item, after⟩, first, ⟨items', rest'⟩, others, equal⟩ := read_eq
    cases equal
    exact ⟨(item, after ++ more), persists first more, (items', rest' ++ more),
      inductionHypothesis others, rfl⟩

theorem persists_readOpen
    (persists : read.Persists other)
    {room larger : Nat}
    (room_le : room ≤ larger) :
    Reader.Persists (readOpen read room) (readOpen other larger) := by
  intro input items rest read_eq more
  induction room generalizing larger input items with
  | zero =>
    unfold readOpen at read_eq ⊢
    cases input with
    | nil => cases read_eq
    | cons byte input =>
      simp only [List.cons_append] at read_eq ⊢
      split at read_eq <;> cases read_eq
      next isBreak => rw [if_pos isBreak]
  | succ room inductionHypothesis =>
    obtain ⟨larger, rfl⟩ := Nat.exists_eq_add_of_lt room_le
    unfold readOpen at read_eq ⊢
    cases input with
    | nil => cases read_eq
    | cons byte input =>
      simp only [List.cons_append] at read_eq ⊢
      split at read_eq
      · next isBreak =>
        cases read_eq
        rw [if_pos isBreak]
      · next goesOn =>
        rw [if_neg goesOn]
        simp only [Option.bind_eq_bind, Option.bind_eq_some_iff] at read_eq ⊢
        obtain ⟨⟨item, after⟩, first, ⟨items', rest'⟩, others, equal⟩ := read_eq
        cases equal
        exact ⟨(item, after ++ more), persists first more, (items', rest' ++ more),
          inductionHypothesis (by omega) others, rfl⟩

theorem persists_readMembers
    (persists : read.Persists other)
    {limit larger : Nat}
    (limit_le : limit ≤ larger)
    (head : Head)
    (perUnit : Nat) :
    Reader.Persists (readMembers read head perUnit limit)
      (readMembers other head perUnit larger) := by
  intro input items rest read_eq more
  unfold readMembers at read_eq ⊢
  split at read_eq
  · next isOpen =>
    rw [if_pos isOpen]
    exact persists_readOpen persists (Nat.mul_le_mul_left perUnit limit_le) read_eq more
  · next isClosed =>
    rw [if_neg isClosed]
    split at read_eq
    · next short =>
      rw [if_pos (Nat.le_trans short limit_le)]
      exact persists_readCount persists _ read_eq more
    · cases read_eq

/-- Limits that are no lower in any respect. -/
structure Limits.Within (limits larger : Limits) : Prop where
  levels : limits.levels ≤ larger.levels
  items : limits.items ≤ larger.items
  pairs : limits.pairs ≤ larger.pairs

variable {limits larger : Limits} {inner outer : Option (Reader Item)}

theorem persists_readUntagged
    (within : limits.Within larger)
    (persists : ∀ read ∈ inner, ∃ other ∈ outer, Reader.Persists read other) :
    Reader.Persists (readUntagged limits inner) (readUntagged larger outer) := by
  intro input item rest read_eq more
  simp only [readUntagged, Option.bind_eq_bind, Option.bind_eq_some_iff] at read_eq ⊢
  obtain ⟨⟨head, after⟩, head_read, read_eq⟩ := read_eq
  refine ⟨(head, after ++ more), Head.local_read head_read more, ?_⟩
  -- One case for each major type.
  cases major_eq : head.major <;>
    simp only [major_eq, Option.bind_eq_some_iff] at read_eq ⊢
  case unsigned | negative =>
    cases read_eq
    rfl
  case bytes | text =>
    obtain ⟨⟨pieces, after'⟩, string_read, equal⟩ := read_eq
    cases equal
    exact ⟨(pieces, after' ++ more), local_readString _ string_read more, rfl⟩
  case array =>
    obtain ⟨read, inner_eq, ⟨items, after'⟩, members_read, equal⟩ := read_eq
    cases equal
    obtain ⟨other, outer_eq, persists⟩ := persists read inner_eq
    exact ⟨other, outer_eq, (items, after' ++ more),
      persists_readMembers persists within.items _ _ members_read more, rfl⟩
  case map =>
    obtain ⟨read, inner_eq, ⟨items, after'⟩, members_read, entries, paired, equal⟩ := read_eq
    cases equal
    obtain ⟨other, outer_eq, persists⟩ := persists read inner_eq
    exact ⟨other, outer_eq, (items, after' ++ more),
      persists_readMembers persists within.pairs _ _ members_read more, entries, paired, rfl⟩
  case tag => cases read_eq
  case simple =>
    split at read_eq
    · next isSimple =>
      cases read_eq
      exact if_pos isSimple
    · next isFloat =>
      cases read_eq
      exact if_neg isFloat

theorem startsWithTag_append
    {input : List UInt8}
    (nonempty : input ≠ [])
    (more : List UInt8) :
    startsWithTag (input ++ more) = startsWithTag input := by
  cases input with
  | nil => exact absurd rfl nonempty
  | cons initial input => rfl

theorem startsWithTag_append_of_tag
    {input : List UInt8}
    (isTag : startsWithTag input = true)
    (more : List UInt8) :
    startsWithTag (input ++ more) = true := by
  have nonempty : input ≠ [] := by
    rintro rfl
    cases isTag
  rw [startsWithTag_append nonempty, isTag]

/-- Where an item is read there is a byte that tells whether it is a tag. -/
theorem ne_nil_of_readUntagged
    {input rest : List UInt8}
    {item : Item}
    (read_eq : readUntagged limits inner input = some (item, rest)) :
    input ≠ [] := by
  rintro rfl
  cases read_eq

theorem persists_readTagged
    (within : limits.Within larger)
    (persists : ∀ read ∈ inner, ∃ other ∈ outer, Reader.Persists read other) :
    Reader.Persists (readTagged limits inner) (readTagged larger outer) := by
  intro input item rest read_eq more
  unfold readTagged at read_eq ⊢
  split at read_eq
  · next isTag =>
    rw [if_pos (startsWithTag_append_of_tag isTag more)]
    simp only [Option.bind_eq_bind, Option.bind_eq_some_iff] at read_eq ⊢
    obtain ⟨⟨head, after⟩, head_read, read_eq⟩ := read_eq
    refine ⟨(head, after ++ more), Head.local_read head_read more, ?_⟩
    dsimp only at read_eq ⊢
    split at read_eq
    · next isNested =>
      rw [if_pos (startsWithTag_append_of_tag isNested more)]
      simp only [Option.bind_eq_some_iff] at read_eq ⊢
      obtain ⟨read, inner_eq, ⟨content, after'⟩, content_read, equal⟩ := read_eq
      cases equal
      obtain ⟨other, outer_eq, persists⟩ := persists read inner_eq
      exact ⟨other, outer_eq, (content, after' ++ more), persists content_read more, rfl⟩
    · next notNested =>
      simp only [Option.bind_eq_some_iff] at read_eq
      obtain ⟨⟨content, after'⟩, content_read, equal⟩ := read_eq
      cases equal
      rw [startsWithTag_append (ne_nil_of_readUntagged content_read), if_neg notNested]
      simp only [Option.bind_eq_some_iff]
      exact ⟨(content, after' ++ more),
        persists_readUntagged within persists content_read more, rfl⟩
  · next notTag =>
    rw [startsWithTag_append (ne_nil_of_readUntagged read_eq), if_neg notTag]
    exact persists_readUntagged within persists read_eq more

/-- What is read within some limits is read within larger ones, whatever follows. -/
theorem persists_readItem
    (within : limits.Within larger)
    {levels more : Nat}
    (levels_le : levels ≤ more) :
    Reader.Persists (readItem limits levels) (readItem larger more) := by
  induction levels generalizing more with
  | zero =>
    cases more with
    | zero => exact persists_readTagged within (by simp)
    | succ more => exact persists_readTagged within (by simp)
  | succ levels inductionHypothesis =>
    obtain ⟨more, rfl⟩ := Nat.exists_eq_add_of_lt levels_le
    refine persists_readTagged within ?_
    rintro read ⟨⟩
    exact ⟨_, rfl, inductionHypothesis (by omega)⟩

end Persists

/-! ## Well-formed bytes -/

/-- Some bytes spell an item, whatever its size. -/
def Spells (input : List UInt8) (item : Item) : Prop :=
  ∃ limits, Item.ofBytes? limits input = some item

/-- Some bytes are a single item, whatever its size. -/
def WellFormed (input : List UInt8) : Prop :=
  ∃ item, Spells input item

theorem readItem_of_ofBytes?
    {limits : Limits}
    {input : List UInt8}
    {item : Item}
    (read_eq : Item.ofBytes? limits input = some item) :
    readItem limits limits.levels input = some (item, []) := by
  unfold Item.ofBytes? at read_eq
  split at read_eq
  · next other other_eq =>
    cases read_eq
    exact other_eq
  · cases read_eq

/-- Limits that hold for two items at once. -/
def Limits.join (limits other : Limits) : Limits where
  levels := max limits.levels other.levels
  items := max limits.items other.items
  pairs := max limits.pairs other.pairs

theorem Limits.within_join_left (limits other : Limits) : limits.Within (limits.join other) :=
  ⟨Nat.le_max_left _ _, Nat.le_max_left _ _, Nat.le_max_left _ _⟩

theorem Limits.within_join_right (limits other : Limits) : other.Within (limits.join other) :=
  ⟨Nat.le_max_right _ _, Nat.le_max_right _ _, Nat.le_max_right _ _⟩

/-- Bytes that spell an item and go on spell no other, and none at all if something
follows. -/
theorem Spells.append_unique
    {input added : List UInt8}
    {item other : Item}
    (spells : Spells input item)
    (spells' : Spells (input ++ added) other) :
    item = other ∧ added = [] := by
  obtain ⟨limits, read_eq⟩ := spells
  obtain ⟨limits', read_eq'⟩ := spells'
  -- Within the larger of the two limits both items are read from the same bytes.
  have within := limits.within_join_left limits'
  have within' := limits.within_join_right limits'
  have first := persists_readItem within within.levels (readItem_of_ofBytes? read_eq) added
  have second := persists_readItem within' within'.levels (readItem_of_ofBytes? read_eq') []
  rw [List.append_nil, first, List.nil_append] at second
  cases second
  exact ⟨rfl, rfl⟩

theorem Spells.unique
    {input : List UInt8}
    {item other : Item}
    (spells : Spells input item)
    (spells' : Spells input other) :
    item = other :=
  (spells.append_unique (by rwa [List.append_nil])).1

/-! ## Damage -/

/-- Bytes of which the end was cut off, or behind which something was added. -/
def Damaged (original damaged : List UInt8) : Prop :=
  damaged ≠ original ∧ (damaged <+: original ∨ original <+: damaged)

/-- What spells an item does so no longer once it is damaged. -/
theorem Damaged.not_wellFormed
    {original damaged : List UInt8}
    (isDamaged : Damaged original damaged)
    (wellFormed : WellFormed original) :
    ¬WellFormed damaged := by
  obtain ⟨item, spells⟩ := wellFormed
  rintro ⟨other, spells'⟩
  obtain ⟨different, ⟨lost, rfl⟩ | ⟨added, rfl⟩⟩ := isDamaged
  · obtain ⟨-, rfl⟩ := spells'.append_unique spells
    exact different (List.append_nil _).symm
  · obtain ⟨-, rfl⟩ := spells.append_unique spells'
    exact different (List.append_nil _)

end Cbor
end GlyphStack
