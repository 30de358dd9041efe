import GlyphStack.Kind
import GlyphStack.Position
import GlyphStack.Width

/-!
# Instructions and programs
-/

namespace GlyphStack

/-- One instruction of a program, with its place in the source text.  Only a
push makes use of its value. -/
structure Instruction where
  /-- What the instruction does. -/
  kind : Kind
  /-- The value of a push. -/
  value : Int64
  /-- Where the instruction was read. -/
  position : Position
  deriving DecidableEq, Repr, Inhabited

/-- A program is a sequence of instructions. -/
abbrev Program := List Instruction

namespace Instruction

/-- An instruction without a value. -/
def plain (kind : Kind) (position : Position) : Instruction :=
  { kind := kind, value := 0, position := position }

/-- A push of a value that fits the given width. -/
def push
    (width : Width)
    (value : Int64)
    (position : Position) : Except Overflow Instruction := do
  width.check value
  return { kind := .push, value := value, position := position }

/-- The name of an instruction; a push also shows its value. -/
def text (instruction : Instruction) : String :=
  match instruction.kind with
  | .push => "push(" ++ toString instruction.value.toInt ++ ")"
  | kind => kind.name

end Instruction

end GlyphStack
