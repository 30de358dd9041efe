import GlyphStack.Cbor.Item
import GlyphStack.Snapshot
import GlyphStack.Text.Utf8

/-!
# Snapshots in CBOR

A snapshot is written as a map from field numbers to values, in canonical form:
fields in ascending order, integers in their shortest form, an absent register
and an empty error left out, and missing lists as null.  Reading is more
generous: fields may come in any order, unknown fields are passed over, a null
leaves a field as it is, and of a repeated field the first one counts.
-/

namespace GlyphStack
namespace Snapshot

/-- The fields of a snapshot. -/
inductive Field where
  /-- The name of the run. -/
  | runId
  /-- The index of the next instruction. -/
  | index
  /-- The number of instructions passed. -/
  | steps
  /-- The values. -/
  | stack
  /-- The register. -/
  | register
  /-- The marks. -/
  | returns
  /-- The outcomes of closed conditions. -/
  | outcomes
  /-- The number of open blocks. -/
  | openBlocks
  /-- The width of the values. -/
  | width
  /-- The failure that ended the run. -/
  | error
  deriving DecidableEq, Repr

namespace Field

/-- All fields in the order of their numbers. -/
def all : List Field :=
  [.runId, .index, .steps, .stack, .register, .returns, .outcomes, .openBlocks, .width,
    .error]

/-- The number of a field. -/
def number : Field -> Nat
  | .runId => 1
  | .index => 2
  | .steps => 3
  | .stack => 4
  | .register => 5
  | .returns => 6
  | .outcomes => 7
  | .openBlocks => 8
  | .width => 9
  | .error => 10

/-- The field with a number. -/
def ofNumber? (number : Nat) : Option Field :=
  all.find? fun field => field.number == number

/-- The field whose number a text spells. -/
def ofText? (text : String) : Option Field :=
  all.find? fun field => toString field.number == text

end Field

/-! ## Writing -/

namespace Write

/-- An integer. -/
def int (value : Int64) : List UInt8 :=
  if 0 ≤ value.toInt then
    Cbor.Head.write .unsigned value.toInt.toNat
  else
    Cbor.Head.write .negative (-1 - value.toInt).toNat

/-- A truth value. -/
def bool (value : Bool) : List UInt8 :=
  Cbor.Head.write .simple (if value then 21 else 20)

/-- The null value. -/
def null : List UInt8 :=
  Cbor.Head.write .simple 22

/-- A text. -/
def text (value : String) : List UInt8 :=
  let content := Text.toBytes value
  Cbor.Head.write .text content.length ++ content

/-- A list, which may be missing. -/
def list {α : Type} (element : α -> List UInt8) : Option (List α) -> List UInt8
  | none => null
  | some values => Cbor.Head.write .array values.length ++ values.flatMap element

end Write

/-- The written value of a field, unless the field is left out. -/
def written? (snapshot : Snapshot) : Field -> Option (List UInt8)
  | .runId => some (Write.text snapshot.runId)
  | .index => some (Write.int snapshot.index)
  | .steps => some (Write.int snapshot.steps)
  | .stack => some (Write.list Write.int snapshot.stack)
  | .register => snapshot.register.map Write.int
  | .returns => some (Write.list Write.int snapshot.returns)
  | .outcomes => some (Write.list Write.bool snapshot.outcomes)
  | .openBlocks => some (Write.int snapshot.openBlocks)
  | .width => some (Write.int snapshot.width)
  | .error => if snapshot.error = "" then none else some (Write.text snapshot.error)

/-- The fields that are written, with their values. -/
def writtenFields (snapshot : Snapshot) : List (Field × List UInt8) :=
  Field.all.filterMap fun field => (snapshot.written? field).map (field, ·)

/-- A snapshot in canonical form. -/
def encode (snapshot : Snapshot) : List UInt8 :=
  Cbor.Head.write .map snapshot.writtenFields.length ++
    snapshot.writtenFields.flatMap fun (field, value) =>
      Cbor.Head.write .unsigned field.number ++ value

/-- A snapshot in canonical form, or null where there is none. -/
def encode? : Option Snapshot -> List UInt8
  | none => Write.null
  | some snapshot => snapshot.encode

/-! ## Reading -/

namespace Read

/-- The tag that marks an item as CBOR and says nothing else. -/
def selfDescribed : Nat := 55799

/-- Whether an item may follow a tag.  The tags for dates want a text or a number
and those for big integers want bytes. -/
def suits (number : Nat) (content : Cbor.Item) : Bool :=
  match number, content with
  | 0, .text _ => true
  | 0, _ => false
  | 1, .unsigned _ | 1, .negative _ | 1, .float _ => true
  | 1, _ => false
  | 2, .bytes _ | 3, .bytes _ => true
  | 2, _ | 3, _ => false
  | _, _ => true

/-- The item behind its tags.  The tags of big integers stay, and a tag that its
content does not suit is an error. -/
def untagged : Cbor.Item -> Option Cbor.Item
  | .tag number content =>
    if number = selfDescribed then
      untagged content
    else if suits number content then
      if number = 2 ∨ number = 3 then
        some (.tag number content)
      else
        untagged content
    else
      none
  | item => some item

/-- Whether an item is null or undefined. -/
def isNull : Cbor.Item -> Bool
  | .simple value => value == 22 || value == 23
  | _ => false

/-- An integer that fits 64 bits. -/
def fitting (value : Int) : Option Int64 :=
  if Int64.minValue.toInt ≤ value ∧ value ≤ Int64.maxValue.toInt then
    some (Int64.ofInt value)
  else
    none

/-- An integer.  Null counts as zero, and a simple value other than a truth
value counts as its number. -/
def int (item : Cbor.Item) : Option Int64 := do
  match <- untagged item with
  | .unsigned value => fitting value
  | .negative value => fitting (-1 - value)
  | .tag 2 (.bytes content) => fitting (Cbor.ofBigEndian content)
  | .tag 3 (.bytes content) => fitting (-1 - Cbor.ofBigEndian content)
  | .simple value =>
    if value = 22 ∨ value = 23 then some 0
    else if value = 20 ∨ value = 21 then none
    else fitting value
  | _ => none

/-- A truth value.  Null counts as false. -/
def bool (item : Cbor.Item) : Option Bool := do
  match <- untagged item with
  | .simple value =>
    if value = 21 then some true
    else if value = 20 ∨ value = 22 ∨ value = 23 then some false
    else none
  | _ => none

/-- The text of some pieces, each of which has to be a text of its own. -/
def pieces (content : List (List UInt8)) : Option String := do
  let texts <- content.mapM Text.ofBytes?
  return String.join texts

/-- A text.  Null counts as the empty text. -/
def text (item : Cbor.Item) : Option String := do
  match <- untagged item with
  | .text content => pieces content
  | .simple value => if value = 22 ∨ value = 23 then some "" else none
  | _ => none

/-- A list.  Null counts as a missing list. -/
def list {α : Type} (element : Cbor.Item -> Option α) (item : Cbor.Item) :
    Option (Option (List α)) := do
  match <- untagged item with
  | .array items =>
    let values <- items.mapM element
    return some values
  | .simple value => if value = 22 ∨ value = 23 then some none else none
  | _ => none

/-- The field that a key names, if it names one.  A key is an integer or a text.
No field has a negative number, and a negative key has to fit 64 bits. -/
def field? (key : Cbor.Item) : Option (Option Field) :=
  match key with
  | .unsigned value => some (Field.ofNumber? value)
  | .negative value => if value ≤ Int64.maxValue.toInt.toNat then some none else none
  | .text content => (pieces content).map Field.ofText?
  | _ => none

/-- A snapshot with one field read from an item. -/
def setField (snapshot : Snapshot) (field : Field) (item : Cbor.Item) : Option Snapshot :=
  match field with
  | .runId => (text item).map fun value => { snapshot with runId := value }
  | .index => (int item).map fun value => { snapshot with index := value }
  | .steps => (int item).map fun value => { snapshot with steps := value }
  | .stack => (list int item).map fun values => { snapshot with stack := values }
  | .register =>
    if isNull item then
      some { snapshot with register := none }
    else
      (int item).map fun value => { snapshot with register := some value }
  | .returns => (list int item).map fun values => { snapshot with returns := values }
  | .outcomes => (list bool item).map fun values => { snapshot with outcomes := values }
  | .openBlocks => (int item).map fun value => { snapshot with openBlocks := value }
  | .width => (int item).map fun value => { snapshot with width := value }
  | .error => (text item).map fun value => { snapshot with error := value }

/-- Read the entries of a map into a snapshot, given the fields read before. -/
def entries (snapshot : Snapshot) (seen : List Field) :
    List (Cbor.Item × Cbor.Item) -> Option Snapshot
  | [] => some snapshot
  | (key, value) :: rest => do
    match <- field? key with
    | none => entries snapshot seen rest
    | some field =>
      if field ∈ seen then
        entries snapshot seen rest
      else
        let updated <- setField snapshot field value
        entries updated (field :: seen) rest

/-- The snapshot that an item holds.  Null counts as the snapshot with nothing
in it. -/
def snapshot (item : Cbor.Item) : Option Snapshot := do
  match <- untagged item with
  | .map content => entries {} [] content
  | .simple value => if value = 22 ∨ value = 23 then some {} else none
  | _ => none

end Read

/-- The snapshot that some bytes spell. -/
def decode? (input : List UInt8) : Option Snapshot := do
  let item <- Cbor.Item.ofBytes? .standard input
  Read.snapshot item

instance : Format where
  marshal? snapshot? := some (encode? snapshot?)
  unmarshal? := decode?

end Snapshot
end GlyphStack
