import GlyphStack.Engine
import GlyphStack.Text.Layout

/-!
# Snapshots

A snapshot keeps the state of a run for a later look.  Snapshots may also come
from a file, so their numbers are any 64-bit integers and their lists may be
missing.
-/

namespace GlyphStack

/-- The recorded state of a run. -/
structure Snapshot where
  /-- The name of the run. -/
  runId : String := ""
  /-- The index of the next instruction. -/
  index : Int64 := 0
  /-- The number of instructions passed. -/
  steps : Int64 := 0
  /-- The values, bottom first. -/
  stack : Option (List Int64) := none
  /-- The register, if something was saved. -/
  register : Option Int64 := none
  /-- The marks, oldest first. -/
  returns : Option (List Int64) := none
  /-- The outcomes of closed conditions, oldest first. -/
  outcomes : Option (List Bool) := none
  /-- The number of open blocks. -/
  openBlocks : Int64 := 0
  /-- The width that values had to fit. -/
  width : Int64 := 0
  /-- The failure that ended the run, or nothing. -/
  error : String := ""
  deriving DecidableEq, Repr

namespace Snapshot

/-- The values of a list, or none if the list is missing. -/
def shown {α : Type} (render : α -> String) (values : Option (List α)) : String :=
  Text.bracketed ((values.getD []).map render)

/-- The text of an integer. -/
def number (value : Int64) : String :=
  toString value.toInt

/-- The text of a truth value. -/
def truth (value : Bool) : String :=
  if value then "true" else "false"

/-- A snapshot as text. -/
def text (snapshot : Snapshot) : String :=
  "; run " ++ snapshot.runId ++ "\n" ++
  "; ip=" ++ number snapshot.index ++ " steps=" ++ number snapshot.steps ++
    " byte-width=" ++ number snapshot.width ++
    " open-blocks=" ++ number snapshot.openBlocks ++ "\n" ++
  "stack:    " ++ shown number snapshot.stack ++ "\n" ++
  "register: " ++
    (match snapshot.register with
      | some value => number value
      | none => "<unset>") ++ "\n" ++
  "returns:  " ++ shown number snapshot.returns ++ "\n" ++
  "outcomes: " ++ shown truth snapshot.outcomes ++ "\n" ++
  if snapshot.error = "" then "" else "error:    " ++ snapshot.error ++ "\n"

/-- The form in which snapshots are kept in files. -/
class Format where
  /-- The content of a file for a snapshot, or for none. -/
  marshal? : Option Snapshot -> Option (List UInt8)
  /-- The snapshot of a file with the given content. -/
  unmarshal? : List UInt8 -> Option Snapshot

end Snapshot

/-- The snapshot of a state under the name of its run. -/
def Engine.State.snapshot
    (id : String)
    (failure : Option Failure)
    (state : State) : Snapshot where
  runId := id
  index := Int64.ofNat state.index
  steps := Int64.ofNat state.steps
  stack := some state.machine.stack.toList
  register := state.machine.register
  returns := some (state.machine.returns.toList.map Int64.ofNat)
  outcomes := some state.machine.outcomes.toList
  openBlocks := Int64.ofNat state.frames.length
  width := Int64.ofNat state.machine.width.bytes
  error := (failure.map Failure.message).getD ""

/-- The snapshot of the latest run. -/
def Engine.snapshot? (engine : Engine) : Option Snapshot :=
  engine.latest.map fun latest => latest.state.snapshot latest.id latest.failure

end GlyphStack
