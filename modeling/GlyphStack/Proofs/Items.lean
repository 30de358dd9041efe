import GlyphStack.Cbor.Item

/-!
# What can be read

An item that was read from some bytes has no more text than these bytes, and its
arrays have no more members than an array may have, in whatever form they were
written.
-/

namespace GlyphStack
namespace Cbor

/-- An item whose arrays are within the limits, and whose texts have no more than the
given number of bytes.  What an array holds is left open. -/
inductive Item.Fits (limits : Limits) (bound : Nat) : Item -> Prop
  | unsigned (value : Nat) : Fits limits bound (.unsigned value)
  | negative (value : Nat) : Fits limits bound (.negative value)
  | bytes (content : List UInt8) : Fits limits bound (.bytes content)
  | text {pieces : List (List UInt8)}
      (short : pieces.flatten.length ≤ bound) :
      Fits limits bound (.text pieces)
  | array {items : List Item}
      (short : items.length ≤ limits.items) :
      Fits limits bound (.array items)
  | map {entries : List (Item × Item)}
      (values : ∀ entry ∈ entries, Fits limits bound entry.2) :
      Fits limits bound (.map entries)
  | tag {number : Nat} {content : Item}
      (inside : Fits limits bound content) :
      Fits limits bound (.tag number content)
  | simple (value : Nat) : Fits limits bound (.simple value)
  | float (bits : Nat) : Fits limits bound (.float bits)

theorem append_of_take?
    {count : Nat}
    {input taken rest : List UInt8}
    (took : take? count input = some (taken, rest)) :
    input = taken ++ rest := by
  induction count generalizing input taken with
  | zero =>
    cases took
    rfl
  | succ count inductionHypothesis =>
    cases input with
    | nil => cases took
    | cons byte input =>
      simp only [take?, Option.map_eq_some_iff] at took
      obtain ⟨⟨taken', rest'⟩, took, equal⟩ := took
      cases equal
      rw [inductionHypothesis took]
      rfl

/-- A head takes at least one byte. -/
theorem Head.length_lt_of_read
    {input rest : List UInt8}
    {head : Head}
    (read_eq : read input = some (head, rest)) :
    rest.length < input.length := by
  cases input with
  | nil => cases read_eq
  | cons initial input =>
    simp only [read] at read_eq
    split at read_eq
    · split at read_eq
      · cases read_eq
        simp
      · cases read_eq
    · simp only [Option.bind_eq_bind, Option.bind_eq_some_iff] at read_eq
      obtain ⟨count, -, ⟨following, after⟩, took, read_eq⟩ := read_eq
      have split_eq := append_of_take? took
      dsimp only at read_eq
      generalize (if count = 0 then initial.toNat % 32 else ofBigEndian following) = argument
        at read_eq
      split at read_eq
      · cases read_eq
      · cases read_eq
        rw [split_eq, List.length_cons, List.length_append]
        omega

theorem length_le_of_readPieces
    {major : Major}
    {room : Nat}
    {input rest : List UInt8}
    {pieces : List (List UInt8)}
    (read_eq : readPieces major room input = some (pieces, rest)) :
    pieces.flatten.length + rest.length ≤ input.length := by
  induction room generalizing input pieces with
  | zero =>
    unfold readPieces at read_eq
    split at read_eq
    · cases read_eq
    · split at read_eq <;> cases read_eq
      simp
  | succ room inductionHypothesis =>
    unfold readPieces at read_eq
    split at read_eq
    · cases read_eq
    · split at read_eq
      · cases read_eq
        simp
      · simp only [Option.bind_eq_bind, Option.bind_eq_some_iff] at read_eq
        obtain ⟨⟨head, after⟩, head_read, read_eq⟩ := read_eq
        split at read_eq
        · simp only [Option.bind_eq_some_iff] at read_eq
          obtain ⟨⟨piece, after'⟩, took, ⟨pieces', rest'⟩, others, equal⟩ := read_eq
          cases equal
          have shorter := Head.length_lt_of_read head_read
          have split_eq := congrArg List.length (append_of_take? took)
          have others_le := inductionHypothesis others
          simp only [List.length_append, List.length_cons, List.flatten_cons] at *
          omega
        · cases read_eq

theorem length_le_of_readString
    {head : Head}
    {input rest : List UInt8}
    {pieces : List (List UInt8)}
    (read_eq : readString head input = some (pieces, rest)) :
    pieces.flatten.length + rest.length ≤ input.length := by
  unfold readString at read_eq
  split at read_eq
  · exact length_le_of_readPieces read_eq
  · simp only [Option.bind_eq_bind, Option.bind_eq_some_iff] at read_eq
    obtain ⟨⟨content, after⟩, took, equal⟩ := read_eq
    cases equal
    simp [append_of_take? took]

/-- A reader that takes fitting items from inputs of limited length. -/
def Reader.Fits (limits : Limits) (bound : Nat) (read : Reader Item) : Prop :=
  ∀ input item rest, input.length ≤ bound -> read input = some (item, rest) ->
    item.Fits limits bound ∧ rest.length ≤ input.length

section Fits

variable {limits : Limits} {bound : Nat} {read : Reader Item}

theorem fits_of_readCount
    (reader_fits : Reader.Fits limits bound read)
    {count : Nat}
    {input rest : List UInt8}
    {items : List Item}
    (input_le : input.length ≤ bound)
    (read_eq : readCount read count input = some (items, rest)) :
    items.length = count ∧ (∀ item ∈ items, item.Fits limits bound) ∧
      rest.length ≤ input.length := by
  induction count generalizing input items with
  | zero =>
    cases read_eq
    simp
  | succ count inductionHypothesis =>
    simp only [readCount, Option.bind_eq_bind, Option.bind_eq_some_iff] at read_eq
    obtain ⟨⟨item, after⟩, first, ⟨items', rest'⟩, others, equal⟩ := read_eq
    dsimp only at others equal
    cases equal
    obtain ⟨item_fits, after_le⟩ := reader_fits _ _ _ input_le first
    obtain ⟨length_eq, items_fit, rest_le⟩ := inductionHypothesis (by omega) others
    refine ⟨by simp [length_eq], ?_, by omega⟩
    rintro other (_ | ⟨_, listed⟩)
    · exact item_fits
    · exact items_fit other listed

theorem fits_of_readOpen
    (reader_fits : Reader.Fits limits bound read)
    {room : Nat}
    {input rest : List UInt8}
    {items : List Item}
    (input_le : input.length ≤ bound)
    (read_eq : readOpen read room input = some (items, rest)) :
    items.length ≤ room ∧ (∀ item ∈ items, item.Fits limits bound) ∧
      rest.length ≤ input.length := by
  induction room generalizing input items with
  | zero =>
    unfold readOpen at read_eq
    split at read_eq
    · cases read_eq
    · split at read_eq <;> cases read_eq
      simp
  | succ room inductionHypothesis =>
    unfold readOpen at read_eq
    split at read_eq
    · cases read_eq
    · split at read_eq
      · cases read_eq
        simp
      · simp only [Option.bind_eq_bind, Option.bind_eq_some_iff] at read_eq
        obtain ⟨⟨item, after⟩, first, ⟨items', rest'⟩, others, equal⟩ := read_eq
        dsimp only at others equal
        cases equal
        obtain ⟨item_fits, after_le⟩ := reader_fits _ _ _ input_le first
        obtain ⟨length_le, items_fit, rest_le⟩ := inductionHypothesis (by omega) others
        refine ⟨by simpa using length_le, ?_, by omega⟩
        rintro other (_ | ⟨_, listed⟩)
        · exact item_fits
        · exact items_fit other listed

theorem fits_of_readMembers
    (reader_fits : Reader.Fits limits bound read)
    {head : Head}
    {perUnit limit : Nat}
    {input rest : List UInt8}
    {items : List Item}
    (input_le : input.length ≤ bound)
    (read_eq : readMembers read head perUnit limit input = some (items, rest)) :
    items.length ≤ perUnit * limit ∧ (∀ item ∈ items, item.Fits limits bound) ∧
      rest.length ≤ input.length := by
  unfold readMembers at read_eq
  split at read_eq
  · exact fits_of_readOpen reader_fits input_le read_eq
  · split at read_eq
    · next short =>
      obtain ⟨length_eq, rest_fits⟩ := fits_of_readCount reader_fits input_le read_eq
      exact ⟨length_eq ▸ Nat.mul_le_mul_left perUnit short, rest_fits⟩
    · cases read_eq

/-- The values of a map are among its items. -/
theorem mem_of_pairs
    {items : List Item}
    {entries : List (Item × Item)}
    (paired : pairs items = some entries)
    {entry : Item × Item}
    (listed : entry ∈ entries) :
    entry.2 ∈ items := by
  fun_induction pairs items generalizing entries with
  | case1 =>
    cases paired
    cases listed
  | case2 item => cases paired
  | case3 key value rest inductionHypothesis =>
    simp only [Option.bind_eq_bind, Option.bind_eq_some_iff] at paired
    obtain ⟨entries', paired, equal⟩ := paired
    cases equal
    rcases List.mem_cons.mp listed with rfl | listed
    · simp
    · simp [inductionHypothesis paired listed]

theorem fits_readUntagged
    {inner : Option (Reader Item)}
    (inner_fits : ∀ read, inner = some read -> Reader.Fits limits bound read) :
    Reader.Fits limits bound (readUntagged limits inner) := by
  intro input item rest input_le read_eq
  simp only [readUntagged, Option.bind_eq_bind, Option.bind_eq_some_iff] at read_eq
  obtain ⟨⟨head, after⟩, head_read, read_eq⟩ := read_eq
  have shorter := Head.length_lt_of_read head_read
  dsimp only at read_eq
  -- One case for each major type, in the order of their numbers.
  split at read_eq
  · cases read_eq
    exact ⟨.unsigned _, by omega⟩
  · cases read_eq
    exact ⟨.negative _, by omega⟩
  · simp only [Option.bind_eq_some_iff] at read_eq
    obtain ⟨⟨pieces, after'⟩, string_read, equal⟩ := read_eq
    dsimp only at equal
    cases equal
    have shorter' := length_le_of_readString string_read
    exact ⟨.bytes _, by omega⟩
  · simp only [Option.bind_eq_some_iff] at read_eq
    obtain ⟨⟨pieces, after'⟩, string_read, equal⟩ := read_eq
    dsimp only at equal
    cases equal
    have shorter' := length_le_of_readString string_read
    exact ⟨.text (by omega), by omega⟩
  · simp only [Option.bind_eq_some_iff] at read_eq
    obtain ⟨read, inner_eq, ⟨items, after'⟩, members_read, equal⟩ := read_eq
    dsimp only at equal
    cases equal
    obtain ⟨length_le, -, shorter'⟩ :=
      fits_of_readMembers (inner_fits read inner_eq) (by omega) members_read
    exact ⟨.array (by omega), by omega⟩
  · simp only [Option.bind_eq_some_iff] at read_eq
    obtain ⟨read, inner_eq, ⟨items, after'⟩, members_read, entries, paired, equal⟩ := read_eq
    dsimp only at paired equal
    cases equal
    obtain ⟨-, items_fit, shorter'⟩ :=
      fits_of_readMembers (inner_fits read inner_eq) (by omega) members_read
    exact ⟨.map fun entry listed => items_fit _ (mem_of_pairs paired listed), by omega⟩
  · cases read_eq
  · split at read_eq
    · cases read_eq
      exact ⟨.simple _, by omega⟩
    · cases read_eq
      exact ⟨.float _, by omega⟩

theorem fits_readTagged
    {inner : Option (Reader Item)}
    (inner_fits : ∀ read, inner = some read -> Reader.Fits limits bound read) :
    Reader.Fits limits bound (readTagged limits inner) := by
  intro input item rest input_le read_eq
  unfold readTagged at read_eq
  split at read_eq
  · simp only [Option.bind_eq_bind, Option.bind_eq_some_iff] at read_eq
    obtain ⟨⟨head, after⟩, head_read, read_eq⟩ := read_eq
    have shorter := Head.length_lt_of_read head_read
    dsimp only at read_eq
    split at read_eq
    · simp only [Option.bind_eq_some_iff] at read_eq
      obtain ⟨read, inner_eq, ⟨content, after'⟩, content_read, equal⟩ := read_eq
      dsimp only at equal
      cases equal
      obtain ⟨content_fits, shorter'⟩ :=
        inner_fits read inner_eq _ _ _ (by omega) content_read
      exact ⟨.tag content_fits, by omega⟩
    · simp only [Option.bind_eq_some_iff] at read_eq
      obtain ⟨⟨content, after'⟩, content_read, equal⟩ := read_eq
      dsimp only at equal
      cases equal
      obtain ⟨content_fits, shorter'⟩ :=
        fits_readUntagged inner_fits _ _ _ (by omega) content_read
      exact ⟨.tag content_fits, by omega⟩
  · exact fits_readUntagged inner_fits _ _ _ input_le read_eq

theorem fits_readItem (levels : Nat) : Reader.Fits limits bound (readItem limits levels) := by
  induction levels with
  | zero =>
    refine fits_readTagged fun read none_eq => ?_
    cases none_eq
  | succ levels inductionHypothesis =>
    refine fits_readTagged fun read some_eq => ?_
    cases some_eq
    exact inductionHypothesis

end Fits

/-- Whatever some bytes are read as fits the number of these bytes. -/
theorem Item.fits_of_ofBytes?
    {limits : Limits}
    {input : List UInt8}
    {item : Item}
    (read_eq : Item.ofBytes? limits input = some item) :
    item.Fits limits input.length := by
  unfold Item.ofBytes? at read_eq
  split at read_eq
  · next other read_item =>
    cases read_eq
    exact (fits_readItem limits.levels _ _ _ (Nat.le_refl _) read_item).1
  · cases read_eq

end Cbor
end GlyphStack
