import GlyphStack.Arithmetic
import GlyphStack.Machine

/-!
# Effects on the stack

Every kind that does not steer the run has an effect on the stack, and some
yield text to print.
-/

namespace GlyphStack
namespace Effect

/-- The character with the given code point. -/
def character? (value : Int64) : Option Char :=
  if value < 0 then
    none
  else if valid : value.toInt.toNat.isValidChar then
    some (Char.ofNatAux value.toInt.toNat valid)
  else
    none

/-- The mark that may stand at the start of a text to show its byte order. -/
def byteOrderMark : Char := '\ufeff'

/-- The characters of some code points, lowest first.  The cause of a failure
is the first value that is no code point, with the number of values above
it. -/
def characters : List Int64 -> Except Fault (List Char)
  | [] => .ok []
  | value :: above =>
    match character? value with
    | none => .error (.invalidCodePointAt value above.length)
    | some c => do
      let rest <- characters above
      return c :: rest

/-- The text of some characters.  A byte-order mark at the start is not part of
the text. -/
def textOf : List Char -> String
  | [] => ""
  | c :: rest => String.ofList (if c = byteOrderMark then rest else c :: rest)

/-- Compute with the top value. -/
def unary (operation : Int64 -> Except Fault Int64) : Action Unit := do
  let a <- Machine.pop
  match operation a with
  | .ok result => Machine.push result
  | .error fault => throw fault

/-- Compute with the two top values.  Nothing is removed unless there are
two. -/
def binary (operation : Int64 -> Int64 -> Except Fault Int64) : Action Unit := do
  let machine <- get
  if machine.stack.size < 2 then
    throw .stackUnderflow
  let b <- Machine.pop
  let a <- Machine.pop
  match operation a b with
  | .ok result => Machine.push result
  | .error fault => throw fault

/-- Yield the top value as a character. -/
def chr : Action String := do
  let value <- Machine.peek
  match character? value with
  | some c => return String.singleton c
  | none => throw (.invalidCodePoint value)

/-- Yield all values as text. -/
def toText : Action String := do
  let machine <- get
  match characters machine.stack.toList with
  | .ok text => return textOf text
  | .error fault => throw fault

/-- The effect of an instruction that does not steer the run, with the text that
it yields. -/
def apply (instruction : Instruction) : Action (Option String) := do
  match instruction.kind with
  | .push =>
    Machine.push instruction.value
    return none
  | .pop =>
    let value <- Machine.pop
    return some (toString value.toInt)
  | .peek =>
    let value <- Machine.peek
    return some (toString value.toInt)
  | .clear =>
    modify fun machine => { machine with stack := .empty }
    return none
  | .nonOp => return none
  | .chr =>
    let text <- chr
    return some text
  | .copy =>
    let value <- Machine.peek
    Machine.pushUnchecked value
    return none
  | .toText =>
    let text <- toText
    return some text
  | kind =>
    match Arithmetic.unary? kind, Arithmetic.binary? kind with
    | some operation, _ =>
      unary operation
      return none
    | none, some operation =>
      binary operation
      return none
    | none, none => throw (.noEffect kind)

end Effect
end GlyphStack
