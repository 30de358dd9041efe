import GlyphStack.Fault
import GlyphStack.Stack

/-!
# Machines

A machine holds what a run computes with: the value stack, the marks to jump
back to, the outcomes of closed conditions and one register.  An action on a
machine either returns a result or fails with a cause; in both cases it leaves
a machine behind.
-/

namespace GlyphStack

/-- The memory of a run. -/
structure Machine where
  /-- The values. -/
  stack : Stack Int64
  /-- The indices of the marks to jump back to. -/
  returns : Stack Nat
  /-- Whether the conditions closed so far held. -/
  outcomes : Stack Bool
  /-- The register, once something was saved. -/
  register : Option Int64
  /-- The width that pushed values have to fit. -/
  width : Width
  deriving DecidableEq, Repr

/-- An action on a machine. -/
abbrev Action (α : Type) := EStateM Fault Machine α

namespace Machine

/-- A machine without values. -/
def new (width : Width) : Machine where
  stack := .empty
  returns := .empty
  outcomes := .empty
  register := none
  width := width

/-- Push a value that fits the width. -/
def push (value : Int64) : Action Unit := do
  let machine <- get
  match machine.width.check value with
  | .ok () => set { machine with stack := machine.stack.push value }
  | .error overflow => throw (.overflow overflow)

/-- Push a value without a check. -/
def pushUnchecked (value : Int64) : Action Unit :=
  modify fun machine => { machine with stack := machine.stack.push value }

/-- Remove the top value. -/
def pop : Action Int64 := do
  let machine <- get
  match machine.stack.pop? with
  | none => throw .stackUnderflow
  | some (value, below) =>
    set { machine with stack := below }
    return value

/-- The top value. -/
def peek : Action Int64 := do
  let machine <- get
  match machine.stack.peek? with
  | none => throw .stackUnderflow
  | some value => return value

/-- Copy the top value into the register. -/
def save : Action Unit := do
  let value <- peek
  modify fun machine => { machine with register := some value }

/-- Push the value of the register.  It came from the stack and needs no
check. -/
def load : Action Unit := do
  let machine <- get
  match machine.register with
  | none => throw .unsetRegister
  | some value => pushUnchecked value

end Machine

end GlyphStack
