import GlyphStack.Command
import GlyphStack.Proofs.Files
import GlyphStack.Proofs.Items
import GlyphStack.Proofs.Snapshots

/-!
# Snapshots in files

What a library makes of snapshots is left open, within some limits of its own.  It is
relied on that it writes the canonical form, reads exactly one well-formed item, takes the
fields of a snapshot from a map of their numbers and refuses what is beyond its limits.
Then a written snapshot is read back, and one that was read is read back once it is written
again; the only snapshots for which this fails are those with a list that is too long.  A
snapshot that is written after a run goes to a file and is printed from there.
-/

namespace GlyphStack
namespace Snapshot

open Cbor

/-! ## What is read can be written -/

/-- A snapshot whose lists are not too long and whose texts have no more than the
given number of bytes. -/
structure Fits (limits : Limits) (bound : Nat) (snapshot : Snapshot) : Prop where
  short : snapshot.Short limits
  runId : (Text.toBytes snapshot.runId).length ≤ bound
  error : (Text.toBytes snapshot.error).length ≤ bound

theorem Fits.addressable
    {limits : Limits}
    (roomy : Roomy limits)
    {bound : Nat}
    {snapshot : Snapshot}
    (fits : snapshot.Fits limits bound)
    (bound_lt : bound < 2 ^ 64) :
    snapshot.Addressable := by
  obtain ⟨⟨stack, returns, outcomes⟩, runId, error⟩ := fits
  have items_lt := roomy.items
  exact {
    runId := by omega
    stack := by omega
    returns := by omega
    outcomes := by omega
    error := by omega }

namespace Read

variable {limits : Limits} {bound : Nat} {item : Item}

theorem fits_untagged
    (fits : item.Fits limits bound)
    {bare : Item}
    (read_eq : untagged item = some bare) :
    bare.Fits limits bound := by
  induction fits with
  | @tag number content inside inductionHypothesis =>
    unfold untagged at read_eq
    split at read_eq
    · exact inductionHypothesis read_eq
    · split at read_eq
      · split at read_eq
        · cases read_eq
          exact .tag inside
        · exact inductionHypothesis read_eq
      · cases read_eq
  | map values _ =>
    cases read_eq
    exact .map values
  | text short =>
    cases read_eq
    exact .text short
  | array short =>
    cases read_eq
    exact .array short
  | unsigned value =>
    cases read_eq
    exact .unsigned value
  | negative value =>
    cases read_eq
    exact .negative value
  | bytes content =>
    cases read_eq
    exact .bytes content
  | simple value =>
    cases read_eq
    exact .simple value
  | float bits =>
    cases read_eq
    exact .float bits

theorem toBytes_of_pieces
    {content : List (List UInt8)}
    {value : String}
    (read_eq : pieces content = some value) :
    Text.toBytes value = content.flatten := by
  simp only [pieces, Option.bind_eq_bind, Option.bind_eq_some_iff] at read_eq
  obtain ⟨texts, texts_eq, equal⟩ := read_eq
  cases equal
  rw [Text.toBytes_join]
  induction content generalizing texts with
  | nil =>
    cases texts_eq
    rfl
  | cons piece content inductionHypothesis =>
    simp only [List.mapM_cons, Option.bind_eq_bind, Option.bind_eq_some_iff] at texts_eq
    obtain ⟨text, text_eq, others, others_eq, equal⟩ := texts_eq
    cases equal
    rw [List.flatMap_cons, List.flatten_cons, Text.toBytes_of_ofBytes? text_eq,
      inductionHypothesis others others_eq]

theorem length_text_le
    (fits : item.Fits limits bound)
    {value : String}
    (read_eq : text item = some value) :
    (Text.toBytes value).length ≤ bound := by
  simp only [text, Option.bind_eq_bind, Option.bind_eq_some_iff] at read_eq
  obtain ⟨bare, bare_eq, read_eq⟩ := read_eq
  have bare_fits := fits_untagged fits bare_eq
  split at read_eq
  · next content =>
    cases bare_fits with
    | text short =>
      rw [toBytes_of_pieces read_eq]
      exact short
  · split at read_eq <;> cases read_eq
    exact Nat.zero_le bound
  · cases read_eq

theorem length_list_le
    {α : Type}
    {element : Item -> Option α}
    (fits : item.Fits limits bound)
    {values : Option (List α)}
    (read_eq : list element item = some values) :
    (values.getD []).length ≤ limits.items := by
  have length_eq : ∀ (items : List Item) (values : List α),
      items.mapM element = some values -> values.length = items.length := by
    intro items
    induction items with
    | nil =>
      intro values read_eq
      cases read_eq
      rfl
    | cons first items inductionHypothesis =>
      intro values read_eq
      simp only [List.mapM_cons, Option.bind_eq_bind, Option.bind_eq_some_iff] at read_eq
      obtain ⟨value, -, others, others_eq, equal⟩ := read_eq
      cases equal
      simp [inductionHypothesis others others_eq]
  simp only [list, Option.bind_eq_bind, Option.bind_eq_some_iff] at read_eq
  obtain ⟨bare, bare_eq, read_eq⟩ := read_eq
  have bare_fits := fits_untagged fits bare_eq
  split at read_eq
  · next items =>
    cases bare_fits with
    | array short =>
      simp only [Option.bind_eq_some_iff] at read_eq
      obtain ⟨others, others_eq, equal⟩ := read_eq
      cases equal
      rw [Option.getD_some, length_eq items others others_eq]
      exact short
  · split at read_eq <;> cases read_eq
    exact Nat.zero_le limits.items
  · cases read_eq

variable {snapshot updated : Snapshot}

/-- A field that is read from a fitting item fits. -/
theorem fits_setField
    (snapshot_fits : snapshot.Fits limits bound)
    (fits : item.Fits limits bound)
    {field : Field}
    (read_eq : setField snapshot field item = some updated) :
    updated.Fits limits bound := by
  obtain ⟨⟨stack, returns, outcomes⟩, runId, error⟩ := snapshot_fits
  cases field with
  | runId =>
    obtain ⟨value, value_eq, rfl⟩ := Option.map_eq_some_iff.mp read_eq
    exact ⟨⟨stack, returns, outcomes⟩, length_text_le fits value_eq, error⟩
  | error =>
    obtain ⟨value, value_eq, rfl⟩ := Option.map_eq_some_iff.mp read_eq
    exact ⟨⟨stack, returns, outcomes⟩, runId, length_text_le fits value_eq⟩
  | stack =>
    obtain ⟨values, values_eq, rfl⟩ := Option.map_eq_some_iff.mp read_eq
    exact ⟨⟨length_list_le fits values_eq, returns, outcomes⟩, runId, error⟩
  | returns =>
    obtain ⟨values, values_eq, rfl⟩ := Option.map_eq_some_iff.mp read_eq
    exact ⟨⟨stack, length_list_le fits values_eq, outcomes⟩, runId, error⟩
  | outcomes =>
    obtain ⟨values, values_eq, rfl⟩ := Option.map_eq_some_iff.mp read_eq
    exact ⟨⟨stack, returns, length_list_le fits values_eq⟩, runId, error⟩
  | register =>
    simp only [setField] at read_eq
    split at read_eq
    · cases read_eq
      exact ⟨⟨stack, returns, outcomes⟩, runId, error⟩
    · obtain ⟨value, -, rfl⟩ := Option.map_eq_some_iff.mp read_eq
      exact ⟨⟨stack, returns, outcomes⟩, runId, error⟩
  | index | steps | openBlocks | width =>
    obtain ⟨value, -, rfl⟩ := Option.map_eq_some_iff.mp read_eq
    exact ⟨⟨stack, returns, outcomes⟩, runId, error⟩

theorem fits_entries
    {seen : List Field}
    {content : List (Item × Item)}
    (snapshot_fits : snapshot.Fits limits bound)
    (fits : ∀ entry ∈ content, entry.2.Fits limits bound)
    (read_eq : entries snapshot seen content = some updated) :
    updated.Fits limits bound := by
  induction content generalizing snapshot seen with
  | nil =>
    cases read_eq
    exact snapshot_fits
  | cons entry content inductionHypothesis =>
    obtain ⟨key, value⟩ := entry
    have content_fits : ∀ entry ∈ content, entry.2.Fits limits bound :=
      fun entry listed => fits entry (List.mem_cons_of_mem _ listed)
    simp only [entries, Option.bind_eq_bind, Option.bind_eq_some_iff] at read_eq
    obtain ⟨named, -, read_eq⟩ := read_eq
    split at read_eq
    · exact inductionHypothesis snapshot_fits content_fits read_eq
    · split at read_eq
      · exact inductionHypothesis snapshot_fits content_fits read_eq
      · simp only [Option.bind_eq_some_iff] at read_eq
        obtain ⟨next, next_eq, read_eq⟩ := read_eq
        have next_fits := fits_setField snapshot_fits (fits _ List.mem_cons_self) next_eq
        exact inductionHypothesis next_fits content_fits read_eq

theorem fits_empty
    (limits : Limits)
    (bound : Nat) :
    Snapshot.Fits limits bound {} :=
  ⟨⟨Nat.zero_le _, Nat.zero_le _, Nat.zero_le _⟩, Nat.zero_le _, Nat.zero_le _⟩

theorem fits_snapshot
    (fits : item.Fits limits bound)
    (read_eq : Read.snapshot item = some updated) :
    updated.Fits limits bound := by
  simp only [Read.snapshot, Option.bind_eq_bind, Option.bind_eq_some_iff] at read_eq
  obtain ⟨bare, bare_eq, read_eq⟩ := read_eq
  have bare_fits := fits_untagged fits bare_eq
  split at read_eq
  · cases bare_fits with
    | map values => exact fits_entries (fits_empty limits bound) values read_eq
  · split at read_eq <;> cases read_eq
    exact fits_empty limits bound
  · cases read_eq

end Read

/-! ## Formats -/

/-- What is relied on so that each file has one snapshot in it. -/
structure Format.Framed [Format] : Prop where
  /-- What is written is the canonical form. -/
  canonical : ∀ ⦃snapshot? : Option Snapshot⦄,
    (∀ snapshot ∈ snapshot?, snapshot.Addressable) ->
      marshal? snapshot? = some (encode? snapshot?)
  /-- What is read is exactly one well-formed item. -/
  single : ∀ ⦃input snapshot⦄, unmarshal? input = some snapshot -> WellFormed input

/-- What is relied on where snapshots are written and read within some limits. -/
structure Format.Honors [Format] (limits : Limits) : Prop extends Format.Framed where
  /-- The limits leave room for a snapshot. -/
  roomy : Roomy limits
  /-- The fields of a snapshot are read from a map of their numbers. -/
  numbered : ∀ ⦃input⦄ ⦃snapshot : Snapshot⦄,
    Item.ofBytes? limits input = some snapshot.item -> unmarshal? input = some snapshot
  /-- An array with more members than the limits allow is refused. -/
  limited : ∀ ⦃input entries key items⦄, Spells input (.map entries) ->
    (key, .array items) ∈ entries -> limits.items < items.length -> unmarshal? input = none
  /-- Nothing is read that is beyond the limits, and no text that the input lacks. -/
  bounded : ∀ ⦃input⦄ ⦃snapshot : Snapshot⦄,
    unmarshal? input = some snapshot -> snapshot.Fits limits input.length

/-- The fields of a snapshot that have a list. -/
theorem exists_long
    {limits : Limits}
    {snapshot : Snapshot}
    (long : ¬ snapshot.Short limits) :
    ∃ field ∈ snapshot.written, ∃ items,
      snapshot.fieldItem field = .array items ∧ limits.items < items.length := by
  have long_list : ∀ {α : Type} {item : α -> Item} {values : Option (List α)},
      ¬ (values.getD []).length ≤ limits.items ->
        ∃ items, listItem item values = .array items ∧ limits.items < items.length := by
    intro α item values long
    cases values with
    | none => exact absurd (Nat.zero_le _) long
    | some values => exact ⟨_, rfl, by simpa using long⟩
  simp only [Short, Decidable.not_and_iff_not_or_not] at long
  rcases long with long | long | long
  · exact ⟨.stack, by simp [written, Field.all, writes], long_list long⟩
  · exact ⟨.returns, by simp [written, Field.all, writes], long_list long⟩
  · exact ⟨.outcomes, by simp [written, Field.all, writes], long_list long⟩

section Honors

variable [Format] {limits : Limits} {snapshot : Snapshot}

/-- A written snapshot is read back, unless one of its lists is too long. -/
theorem Format.Honors.unmarshal?_encode
    (honors : Honors limits)
    (addressable : snapshot.Addressable) :
    unmarshal? snapshot.encode = if snapshot.Short limits then some snapshot else none := by
  split
  · next short => exact honors.numbered (ofBytes?_encode honors.roomy addressable short)
  · next long =>
    obtain ⟨field, written, items, item_eq, long⟩ := exists_long long
    have listed : (.unsigned field.number, .array items) ∈ snapshot.written.map
        fun field => (Item.unsigned field.number, snapshot.fieldItem field) :=
      List.mem_map.mpr ⟨field, written, by rw [item_eq]⟩
    exact honors.limited (spells_encode addressable) listed long

theorem Format.Framed.marshal?_some
    (framed : Framed)
    (addressable : snapshot.Addressable) :
    marshal? (some snapshot) = some snapshot.encode :=
  framed.canonical (by simpa using addressable)

end Honors

/-- The standard limits. -/
theorem roomy_standard : Roomy .standard :=
  ⟨by decide, by decide, by decide⟩

theorem fits_of_decode?
    {input : List UInt8}
    {snapshot : Snapshot}
    (decoded : decode? input = some snapshot) :
    snapshot.Fits .standard input.length := by
  simp only [decode?, Option.bind_eq_bind, Option.bind_eq_some_iff] at decoded
  obtain ⟨item, item_eq, decoded⟩ := decoded
  exact Read.fits_snapshot (Item.fits_of_ofBytes? item_eq) decoded

theorem honors_standard : Format.Honors .standard where
  canonical _ _ := rfl
  single := by
    intro input snapshot decoded
    change decode? input = some snapshot at decoded
    simp only [decode?, Option.bind_eq_bind, Option.bind_eq_some_iff] at decoded
    obtain ⟨item, item_eq, -⟩ := decoded
    exact ⟨item, .standard, item_eq⟩
  roomy := roomy_standard
  numbered := by
    intro input snapshot read_eq
    change decode? input = some snapshot
    rw [decode?, read_eq]
    exact snapshot.snapshot_item
  limited := by
    intro input entries key items spells listed long
    change decode? input = none
    cases item_eq : Item.ofBytes? .standard input with
    | none => rw [decode?, item_eq]; rfl
    | some item =>
      -- What is read is the map, and then its arrays are within the limits.
      obtain rfl := spells.unique ⟨_, item_eq⟩
      cases Item.fits_of_ofBytes? item_eq with
      | map values =>
        cases values _ listed with
        | array short => exact absurd short (Nat.not_le.mpr long)
  bounded _ _ := fits_of_decode?

end Snapshot

/-! ## From a run to its file and back -/

namespace Command

open Storage

variable [Snapshot.Format] {disk after : Disk}

theorem carryOut_inspect
    (path : String)
    (disk : Disk) :
    carryOut disk (inspect path) =
      (match disk.readFile path with
        | .error fault => (Error.unreadableSnapshot path fault).outcome ""
        | .ok content =>
          match Snapshot.Format.unmarshal? content with
          | none => Error.notSnapshot.outcome ""
          | some snapshot => { output := snapshot.text }, disk) := by
  have read_eq : carryOut disk (FileSystem.readFile path) = (disk.readFile path, disk) := rfl
  rw [inspect, carryOut_bind, read_eq]
  dsimp only
  cases disk.readFile path with
  | error fault => rfl
  | ok content =>
    dsimp only
    cases Snapshot.Format.unmarshal? content <;> rfl

/-- A snapshot that was written to a file is printed, unless one of its lists is too
long. -/
theorem carryOut_inspect_of_writeFile
    {limits : Cbor.Limits}
    (honors : Snapshot.Format.Honors limits)
    {snapshot : Snapshot}
    (addressable : snapshot.Addressable)
    {path : String}
    (written : disk.writeFile path snapshot.encode = .ok after) :
    carryOut after (inspect path) =
      (if snapshot.Short limits then { output := snapshot.text }
        else Error.notSnapshot.outcome "", after) := by
  rw [carryOut_inspect, Disk.readFile_of_writeFile written]
  simp only [honors.unmarshal?_encode addressable]
  by_cases short : snapshot.Short limits
  · rw [if_pos short, if_pos short]
  · rw [if_neg short, if_neg short]

/-- After a run its snapshot is in the file that the job names, whether the run
failed or not. -/
theorem carryOut_finish
    {job : Job}
    {engine : Engine}
    (named : job.dump ≠ "")
    {content : List UInt8}
    (marshalled : Snapshot.Format.marshal? engine.snapshot? = some content)
    (written : disk.writeFile job.dump content = .ok after) :
    (carryOut disk (job.finish engine)).2 = after := by
  have committed : carryOut disk (FileSystem.writeFile job.dump content) = (.ok (), after) := by
    change disk.commit (disk.writeFile job.dump content) = _
    rw [written]
    rfl
  have dumped : carryOut disk (Command.dump engine job.dump) = (.ok (), after) := by
    rw [Command.dump, marshalled]
    dsimp only
    rw [carryOut_bind, committed]
    rfl
  rw [Job.finish, if_neg named, carryOut_bind, dumped]
  cases engine.latest.bind fun latest => latest.failure <;> rfl

end Command

namespace Snapshot

open Storage

/-- A written snapshot is read back exactly up to the limit on the length of lists,
and no other snapshot is written like it.  A snapshot that was read is read back.
Up to the limit a file that is written after a run, also after one that failed, is
printed as the snapshot of the run; beyond it the file is refused. -/
theorem written_snapshot_reads_back_up_to_limit
    [Format]
    {limits : Cbor.Limits}
    (honors : Format.Honors limits)
    (snapshot : Snapshot) :
    (snapshot.Addressable -> ∃ content, Format.marshal? (some snapshot) = some content ∧
      Format.unmarshal? content = if snapshot.Short limits then some snapshot else none) ∧
    (∀ other : Snapshot, snapshot.Addressable -> other.Addressable ->
      Format.marshal? (some snapshot) = Format.marshal? (some other) -> snapshot = other) ∧
    (∀ input : List UInt8, input.length < 2 ^ 64 -> Format.unmarshal? input = some snapshot ->
      ∃ content, Format.marshal? (some snapshot) = some content ∧
        Format.unmarshal? content = some snapshot) ∧
    ∀ (width : Width) (sink : Engine.Sink) (limit : Nat) (id : String) (program : Program)
      (job : Command.Job), ∃ kept,
      ((Engine.new width).run sink limit id program).1.snapshot? = some kept ∧
      (kept.Addressable -> ∃ content, Format.marshal? (some kept) = some content ∧
        ∀ disk after : Disk, job.dump ≠ "" -> disk.writeFile job.dump content = .ok after ->
          (carryOut disk
            (job.finish ((Engine.new width).run sink limit id program).1)).2 = after ∧
          carryOut after (Command.inspect job.dump) =
            (if kept.Short limits then { output := kept.text }
              else Command.Error.notSnapshot.outcome "", after)) := by
  refine ⟨fun addressable => ?_, fun other addressable addressable' equal => ?_,
    fun input input_lt decoded => ?_, fun width sink limit id program job => ?_⟩
  · exact ⟨_, honors.marshal?_some addressable, honors.unmarshal?_encode addressable⟩
  · rw [honors.marshal?_some addressable, honors.marshal?_some addressable'] at equal
    exact encode_inj addressable addressable' (Option.some.inj equal)
  · have fits := honors.bounded decoded
    have addressable := fits.addressable honors.roomy input_lt
    refine ⟨_, honors.marshal?_some addressable, ?_⟩
    rw [honors.unmarshal?_encode addressable, if_pos fits.short]
  · obtain ⟨kept, kept_eq⟩ : ∃ kept,
        ((Engine.new width).run sink limit id program).1.snapshot? = some kept := ⟨_, rfl⟩
    refine ⟨kept, kept_eq, fun addressable => ⟨_, honors.marshal?_some addressable, ?_⟩⟩
    intro disk after named written
    refine ⟨Command.carryOut_finish named ?_ written,
      Command.carryOut_inspect_of_writeFile honors addressable written⟩
    rw [kept_eq]
    exact honors.marshal?_some addressable

/-- A stack of as many values as the standard limits allow is read back, and one value
more is refused. -/
theorem written_snapshot_reads_back_up_to_limit_of_zeros :
    Format.Honors .standard ∧
    decode? (encode { stack := some (List.replicate Cbor.Limits.standard.items 0) }) =
      some { stack := some (List.replicate Cbor.Limits.standard.items 0) } ∧
    decode? (encode { stack := some (List.replicate (Cbor.Limits.standard.items + 1) 0) }) =
      none := by
  have addressable : ∀ count, count < 2 ^ 64 ->
      Addressable { stack := some (List.replicate count 0) } := by
    intro count count_lt
    exact {
      runId := by simp [Text.toBytes]
      stack := by simpa using count_lt
      returns := by simp
      outcomes := by simp
      error := by simp [Text.toBytes] }
  obtain ⟨content, content_eq, up_to⟩ :=
    (written_snapshot_reads_back_up_to_limit honors_standard _).1
      (addressable Cbor.Limits.standard.items (by decide))
  obtain ⟨content', content_eq', beyond⟩ :=
    (written_snapshot_reads_back_up_to_limit honors_standard _).1
      (addressable (Cbor.Limits.standard.items + 1) (by decide))
  cases content_eq
  cases content_eq'
  rw [if_pos (by simp [Short])] at up_to
  rw [if_neg (by simp [Short])] at beyond
  exact ⟨honors_standard, up_to, beyond⟩

end Snapshot
end GlyphStack
