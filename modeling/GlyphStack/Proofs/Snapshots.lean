import GlyphStack.Snapshot.Codec
import GlyphStack.Proofs.Chunks
import GlyphStack.Proofs.Glyphs
import GlyphStack.Proofs.Locality

/-!
# Snapshots that are read back

A snapshot is written as a chunk, a map from the numbers of its fields to chunks of
their values.  What such a chunk is read as is known, so the item of the written
snapshot is read back, unless one of its lists has more members than the limits
allow.  As no limits hold for all readers, each written snapshot is a well-formed
item, and no two snapshots are written alike.
-/

namespace GlyphStack

/-! ## Texts -/

namespace Text

theorem ofBytes?_toBytes (text : String) : ofBytes? (toBytes text) = some text := by
  have chars_eq : ∀ chars : List Char, Glyph.chars? (chars.map .char) = some chars := by
    intro chars
    induction chars with
    | nil => rfl
    | cons c chars inductionHypothesis => simp [Glyph.chars?, inductionHypothesis]
  rw [ofBytes?, toBytes, ← Text.utf8, Glyph.decode_utf8, chars_eq]
  simp

theorem toBytes_of_ofBytes?
    {input : List UInt8}
    {text : String}
    (read_eq : ofBytes? input = some text) :
    toBytes text = input := by
  have glyphs_eq : ∀ glyphs chars, Glyph.chars? glyphs = some chars ->
      glyphs = chars.map .char := by
    intro glyphs
    induction glyphs with
    | nil =>
      intro chars read_eq
      cases read_eq
      rfl
    | cons glyph glyphs inductionHypothesis =>
      intro chars read_eq
      cases glyph with
      | stray byte => cases read_eq
      | char c =>
        simp only [Glyph.chars?, Option.map_eq_some_iff] at read_eq
        obtain ⟨others, read_eq, rfl⟩ := read_eq
        rw [inductionHypothesis others read_eq]
        rfl
  simp only [ofBytes?, Option.map_eq_some_iff] at read_eq
  obtain ⟨chars, read_eq, rfl⟩ := read_eq
  rw [toBytes, String.toList_ofList, ← Text.utf8]
  exact (Glyph.decode_eq_map_iff.mp (glyphs_eq _ _ read_eq)).symm

theorem toBytes_join (texts : List String) :
    toBytes (String.join texts) = texts.flatMap toBytes := by
  rw [toBytes, String.toList_join, List.flatMap_assoc]
  rfl

end Text

namespace Snapshot

open Cbor

/-! ## The chunk of a snapshot -/

/-- The item of an integer. -/
def intItem (value : Int64) : Item :=
  if 0 ≤ value.toInt then .unsigned value.toInt.toNat else .negative (-1 - value.toInt).toNat

/-- The item of a truth value. -/
def boolItem (value : Bool) : Item :=
  .simple (if value then 21 else 20)

/-- The item of a text. -/
def textItem (value : String) : Item :=
  .text [Text.toBytes value]

/-- The item of a list, which may be missing. -/
def listItem {α : Type} (item : α -> Item) : Option (List α) -> Item
  | none => .simple 22
  | some values => .array (values.map item)

/-- The chunk of an integer. -/
def intChunk (value : Int64) : Chunk where
  bytes := Write.int value
  item := intItem value

/-- The chunk of a truth value. -/
def boolChunk (value : Bool) : Chunk where
  bytes := Write.bool value
  item := boolItem value

/-- The chunk of a text. -/
def textChunk (value : String) : Chunk where
  bytes := Write.text value
  item := textItem value

/-- The chunk of a list, which may be missing. -/
def listChunk {α : Type} (chunk : α -> Chunk) : Option (List α) -> Chunk
  | none => .simple 22
  | some values => .array (values.map chunk)

section Reads

variable {limits : Limits} {levels : Nat}

theorem reads_intChunk (value : Int64) : (intChunk value).Reads limits levels := by
  have upper := value.toInt_lt
  have lower := value.le_toInt
  unfold intChunk Write.int intItem
  split
  · exact Chunk.reads_unsigned (by omega)
  · exact Chunk.reads_negative (by omega)

theorem reads_boolChunk (value : Bool) : (boolChunk value).Reads limits levels := by
  cases value
  · exact Chunk.reads_simple (by decide)
  · exact Chunk.reads_simple (by decide)

theorem reads_textChunk
    {value : String}
    (fits : (Text.toBytes value).length < 2 ^ 64) :
    (textChunk value).Reads limits levels :=
  Chunk.reads_text fits

theorem reads_listChunk
    {α : Type}
    {chunk : α -> Chunk}
    (reads : ∀ value, (chunk value).Reads limits levels)
    {values : Option (List α)}
    (fits : (values.getD []).length < 2 ^ 64)
    (few : (values.getD []).length ≤ limits.items) :
    (listChunk chunk values).Reads limits (levels + 1) := by
  cases values with
  | none => exact Chunk.reads_simple (by decide)
  | some values =>
    refine Chunk.reads_array (by simpa using fits) (by simpa using few) fun member listed => ?_
    obtain ⟨value, -, rfl⟩ := List.mem_map.mp listed
    exact reads value

end Reads

theorem bytes_listChunk
    {α : Type}
    (chunk : α -> Chunk)
    (values : Option (List α)) :
    (listChunk chunk values).bytes = Write.list (fun value => (chunk value).bytes) values := by
  cases values with
  | none => rfl
  | some values => simp [listChunk, Chunk.array, Write.list, List.flatMap_map]

theorem item_listChunk
    {α : Type}
    (chunk : α -> Chunk)
    (values : Option (List α)) :
    (listChunk chunk values).item = listItem (fun value => (chunk value).item) values := by
  cases values with
  | none => rfl
  | some values => simp [listChunk, Chunk.array, listItem]

/-- The item of a field. -/
def fieldItem (snapshot : Snapshot) : Field -> Item
  | .runId => textItem snapshot.runId
  | .index => intItem snapshot.index
  | .steps => intItem snapshot.steps
  | .stack => listItem intItem snapshot.stack
  | .register => intItem (snapshot.register.getD 0)
  | .returns => listItem intItem snapshot.returns
  | .outcomes => listItem boolItem snapshot.outcomes
  | .openBlocks => intItem snapshot.openBlocks
  | .width => intItem snapshot.width
  | .error => textItem snapshot.error

/-- The chunk of a field. -/
def fieldChunk (snapshot : Snapshot) : Field -> Chunk
  | .runId => textChunk snapshot.runId
  | .index => intChunk snapshot.index
  | .steps => intChunk snapshot.steps
  | .stack => listChunk intChunk snapshot.stack
  | .register => intChunk (snapshot.register.getD 0)
  | .returns => listChunk intChunk snapshot.returns
  | .outcomes => listChunk boolChunk snapshot.outcomes
  | .openBlocks => intChunk snapshot.openBlocks
  | .width => intChunk snapshot.width
  | .error => textChunk snapshot.error

/-- Whether a field is written. -/
def writes (snapshot : Snapshot) : Field -> Bool
  | .register => snapshot.register.isSome
  | .error => snapshot.error != ""
  | _ => true

/-- The fields that are written, in the order of their numbers. -/
def written (snapshot : Snapshot) : List Field :=
  Field.all.filter snapshot.writes

theorem written?_eq
    (snapshot : Snapshot)
    (field : Field) :
    snapshot.written? field =
      if snapshot.writes field then some (snapshot.fieldChunk field).bytes else none := by
  cases field with
  | stack | returns | outcomes =>
    rw [fieldChunk, bytes_listChunk]
    rfl
  | register => cases held : snapshot.register <;>
      simp [written?, writes, fieldChunk, held, intChunk]
  | error => by_cases failed : snapshot.error = "" <;>
      simp [written?, writes, fieldChunk, failed, textChunk]
  | _ => rfl

/-- The chunk of a snapshot. -/
def chunk (snapshot : Snapshot) : Chunk :=
  .map (snapshot.written.map fun field =>
    (.unsigned field.number, snapshot.fieldChunk field))

theorem bytes_chunk (snapshot : Snapshot) : snapshot.chunk.bytes = snapshot.encode := by
  have fields_eq : snapshot.writtenFields =
      snapshot.written.map fun field => (field, (snapshot.fieldChunk field).bytes) := by
    unfold writtenFields written
    induction Field.all with
    | nil => rfl
    | cons field fields inductionHypothesis =>
      rw [List.filterMap_cons, written?_eq, inductionHypothesis]
      cases writes_eq : snapshot.writes field <;> simp [writes_eq]
  simp [chunk, Chunk.map, encode, fields_eq, List.flatMap_map, Chunk.unsigned]

/-- Texts and lists have lengths that 64 bits can hold, as all that is in memory. -/
structure Addressable (snapshot : Snapshot) : Prop where
  runId : (Text.toBytes snapshot.runId).length < 2 ^ 64
  stack : (snapshot.stack.getD []).length < 2 ^ 64
  returns : (snapshot.returns.getD []).length < 2 ^ 64
  outcomes : (snapshot.outcomes.getD []).length < 2 ^ 64
  error : (Text.toBytes snapshot.error).length < 2 ^ 64

/-- No list has more members than the limits allow. -/
def Short (limits : Limits) (snapshot : Snapshot) : Prop :=
  (snapshot.stack.getD []).length ≤ limits.items ∧
    (snapshot.returns.getD []).length ≤ limits.items ∧
    (snapshot.outcomes.getD []).length ≤ limits.items

instance (limits : Limits) (snapshot : Snapshot) : Decidable (snapshot.Short limits) :=
  inferInstanceAs (Decidable (_ ∧ _ ∧ _))

/-- Limits that leave room for a map of all fields and for the lists in it, and that 64
bits can hold. -/
structure Roomy (limits : Limits) : Prop where
  levels : 2 ≤ limits.levels
  items : limits.items < 2 ^ 64
  pairs : Field.all.length ≤ limits.pairs

theorem reads_fieldChunk
    {limits : Limits}
    {snapshot : Snapshot}
    (addressable : snapshot.Addressable)
    (short : snapshot.Short limits)
    (levels : Nat)
    (field : Field) :
    (snapshot.fieldChunk field).Reads limits (levels + 1) := by
  obtain ⟨stack, returns, outcomes⟩ := short
  cases field with
  | runId => exact reads_textChunk addressable.runId
  | error => exact reads_textChunk addressable.error
  | stack => exact reads_listChunk reads_intChunk addressable.stack stack
  | returns => exact reads_listChunk reads_intChunk addressable.returns returns
  | outcomes => exact reads_listChunk reads_boolChunk addressable.outcomes outcomes
  | _ => exact reads_intChunk _

theorem length_written_le (snapshot : Snapshot) :
    snapshot.written.length ≤ Field.all.length :=
  List.length_filter_le _ _

theorem number_lt (field : Field) : field.number < 2 ^ 64 := by
  cases field <;> decide

theorem reads_chunk
    {limits : Limits}
    (roomy : Roomy limits)
    {snapshot : Snapshot}
    (addressable : snapshot.Addressable)
    (short : snapshot.Short limits)
    (levels : Nat) :
    snapshot.chunk.Reads limits (levels + 2) := by
  have few := snapshot.length_written_le
  have addressable_length : Field.all.length < 2 ^ 64 := by decide
  refine Chunk.reads_map (by rw [List.length_map]; omega)
    (by rw [List.length_map]; exact Nat.le_trans few roomy.pairs) fun entry listed => ?_
  obtain ⟨field, -, rfl⟩ := List.mem_map.mp listed
  exact ⟨Chunk.reads_unsigned (number_lt field),
    reads_fieldChunk addressable short levels field⟩

theorem item_fieldChunk
    (snapshot : Snapshot)
    (field : Field) :
    (snapshot.fieldChunk field).item = snapshot.fieldItem field := by
  cases field with
  | stack | returns | outcomes => exact item_listChunk _ _
  | _ => rfl

/-! ## Reading -/

namespace Read

theorem fitting_toInt (value : Int64) : fitting value.toInt = some value := by
  have upper := value.toInt_lt
  have lower := value.le_toInt
  have within : Int64.minValue.toInt ≤ value.toInt ∧ value.toInt ≤ Int64.maxValue.toInt := by
    rw [Int64.toInt_minValue, Int64.toInt_maxValue]
    omega
  rw [fitting, if_pos within, Int64.ofInt_toInt]

theorem int_intItem (value : Int64) : int (intItem value) = some value := by
  unfold intItem
  split
  · next nonnegative =>
    have same : (value.toInt.toNat : Int) = value.toInt := Int.toNat_of_nonneg nonnegative
    change fitting (value.toInt.toNat : Int) = some value
    rw [same, fitting_toInt]
  · next negative =>
    have same : -1 - ((-1 - value.toInt).toNat : Int) = value.toInt := by omega
    change fitting (-1 - ((-1 - value.toInt).toNat : Int)) = some value
    rw [same, fitting_toInt]

theorem isNull_intItem (value : Int64) : isNull (intItem value) = false := by
  unfold intItem
  split <;> rfl

theorem bool_boolItem (value : Bool) : bool (boolItem value) = some value := by
  cases value <;> rfl

theorem text_textItem (value : String) : text (textItem value) = some value := by
  simp [text, textItem, untagged, pieces, Text.ofBytes?_toBytes]

theorem list_listItem
    {α : Type}
    {element : Item -> Option α}
    {item : α -> Item}
    (element_item : ∀ value, element (item value) = some value)
    (values : Option (List α)) :
    list element (listItem item values) = some values := by
  cases values with
  | none => rfl
  | some values =>
    have elements_eq : (values.map item).mapM element = some values := by
      induction values with
      | nil => rfl
      | cons value values inductionHypothesis =>
        simp [List.mapM_cons, element_item, inductionHypothesis]
    simp [list, listItem, untagged, elements_eq]

end Read

/-- Take over a field of another snapshot. -/
def copyField (source target : Snapshot) : Field -> Snapshot
  | .runId => { target with runId := source.runId }
  | .index => { target with index := source.index }
  | .steps => { target with steps := source.steps }
  | .stack => { target with stack := source.stack }
  | .register => { target with register := source.register }
  | .returns => { target with returns := source.returns }
  | .outcomes => { target with outcomes := source.outcomes }
  | .openBlocks => { target with openBlocks := source.openBlocks }
  | .width => { target with width := source.width }
  | .error => { target with error := source.error }

/-- The item of a field is read as what it was written for. -/
theorem setField_fieldItem
    (source target : Snapshot)
    {field : Field}
    (writes : source.writes field) :
    Read.setField target field (source.fieldItem field) =
      some (source.copyField target field) := by
  cases field with
  | runId | error => simp [Read.setField, fieldItem, Read.text_textItem, copyField]
  | stack | returns =>
    simp [Read.setField, fieldItem, Read.list_listItem Read.int_intItem, copyField]
  | outcomes => simp [Read.setField, fieldItem, Read.list_listItem Read.bool_boolItem, copyField]
  | register =>
    cases held : source.register with
    | none => simp [Snapshot.writes, held] at writes
    | some value =>
      simp [Read.setField, fieldItem, held, Read.isNull_intItem, Read.int_intItem, copyField]
  | _ => simp [Read.setField, fieldItem, Read.int_intItem, copyField]

theorem ofNumber?_number (field : Field) : Field.ofNumber? field.number = some field := by
  cases field <;> rfl

/-- Fields are taken over one by one. -/
theorem entries_fieldItems
    (source target : Snapshot)
    {seen fields : List Field}
    (distinct : fields.Nodup)
    (unseen : ∀ field ∈ fields, field ∉ seen)
    (writes : ∀ field ∈ fields, source.writes field) :
    Read.entries target seen
        (fields.map fun field => (.unsigned field.number, source.fieldItem field)) =
      some (fields.foldl source.copyField target) := by
  induction fields generalizing target seen with
  | nil => rfl
  | cons field fields inductionHypothesis =>
    obtain ⟨apart, distinct⟩ := List.nodup_cons.mp distinct
    have first := setField_fieldItem source target (writes field List.mem_cons_self)
    have unseen' : ∀ other ∈ fields, other ∉ field :: seen := by
      intro other listed again
      rcases List.mem_cons.mp again with rfl | again
      · exact apart listed
      · exact unseen other (List.mem_cons_of_mem _ listed) again
    have others := inductionHypothesis (source.copyField target field) distinct unseen'
      fun other listed => writes other (List.mem_cons_of_mem _ listed)
    simp only [List.map_cons, Read.entries, Read.field?, ofNumber?_number, Option.bind_eq_bind,
      Option.bind_some, if_neg (unseen field List.mem_cons_self), first, List.foldl_cons]
    exact others

/-- What is not written is empty. -/
theorem foldl_copyField_written (snapshot : Snapshot) :
    snapshot.written.foldl snapshot.copyField {} = snapshot := by
  obtain ⟨runId, index, steps, stack, register, returns, outcomes, openBlocks, width, error⟩ :=
    snapshot
  cases register <;> by_cases failed : error = "" <;>
    simp [written, Field.all, List.filter_cons, writes, failed, copyField]

/-- The item of a snapshot. -/
def item (snapshot : Snapshot) : Item :=
  .map (snapshot.written.map fun field => (.unsigned field.number, snapshot.fieldItem field))

theorem snapshot_item (snapshot : Snapshot) : Read.snapshot snapshot.item = some snapshot := by
  have all_distinct : Field.all.Nodup := by decide
  have distinct : snapshot.written.Nodup := List.Pairwise.filter _ all_distinct
  have unseen : ∀ field ∈ snapshot.written, field ∉ [] := fun _ _ => List.not_mem_nil
  have read_eq := entries_fieldItems snapshot {} distinct unseen
    fun field listed => (List.mem_filter.mp listed).2
  rw [foldl_copyField_written] at read_eq
  exact read_eq

/-! ## The bytes of a snapshot -/

theorem item_chunk (snapshot : Snapshot) : snapshot.chunk.item = snapshot.item := by
  simp [chunk, Chunk.map, item, item_fieldChunk, Chunk.unsigned]

/-- The item of a snapshot is read from its bytes, unless one of its lists is too
long. -/
theorem ofBytes?_encode
    {limits : Limits}
    (roomy : Roomy limits)
    {snapshot : Snapshot}
    (addressable : snapshot.Addressable)
    (short : snapshot.Short limits) :
    Item.ofBytes? limits snapshot.encode = some snapshot.item := by
  obtain ⟨levels, levels_eq⟩ := Nat.exists_eq_add_of_le' roomy.levels
  have read_eq := reads_chunk roomy addressable short levels []
  rw [List.append_nil, bytes_chunk, item_chunk] at read_eq
  rw [Item.ofBytes?, levels_eq, read_eq]

/-- The least limits within which a snapshot is read back. -/
def needs (snapshot : Snapshot) : Limits where
  levels := 2
  items := max (snapshot.stack.getD []).length
    (max (snapshot.returns.getD []).length (snapshot.outcomes.getD []).length)
  pairs := Field.all.length

section Spells

variable {snapshot other : Snapshot}

/-- A written snapshot spells its item, however long its lists are. -/
theorem spells_encode (addressable : snapshot.Addressable) :
    Spells snapshot.encode snapshot.item := by
  have roomy : Roomy snapshot.needs := {
    levels := Nat.le_refl _
    items := Nat.max_lt.mpr
      ⟨addressable.stack, Nat.max_lt.mpr ⟨addressable.returns, addressable.outcomes⟩⟩
    pairs := Nat.le_refl _ }
  have short : snapshot.Short snapshot.needs := by
    simp only [Short, needs]
    omega
  exact ⟨snapshot.needs, ofBytes?_encode roomy addressable short⟩

/-- Different snapshots are written differently. -/
theorem encode_inj
    (addressable : snapshot.Addressable)
    (addressable' : other.Addressable)
    (equal : snapshot.encode = other.encode) :
    snapshot = other := by
  have spells := spells_encode addressable
  rw [equal] at spells
  have item_eq := spells.unique (spells_encode addressable')
  have read_eq := congrArg Read.snapshot item_eq
  rw [snapshot_item, snapshot_item] at read_eq
  exact Option.some.inj read_eq

end Spells

/-- What is written where there is a snapshot or none is well-formed. -/
theorem wellFormed_encode?
    {snapshot? : Option Snapshot}
    (addressable : ∀ snapshot ∈ snapshot?, snapshot.Addressable) :
    WellFormed (encode? snapshot?) := by
  cases snapshot? with
  | none => exact ⟨.simple 22, .standard, rfl⟩
  | some snapshot => exact ⟨_, spells_encode (addressable snapshot rfl)⟩

end Snapshot
end GlyphStack
