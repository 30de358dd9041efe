import GlyphStack.Instruction
import GlyphStack.Text.Quoted

/-!
# Program listings

A listing shows one instruction a line: its index, its place in the source, and
its name with a comment, indented by the blocks that are open.
-/

namespace GlyphStack
namespace Listing

/-- Whether a value is shown as a character beside a push. -/
def isShown (value : Int64) : Bool :=
  decide (0x20 ≤ value.toInt) && decide (value.toInt < 0x7F)

/-- An instruction with a comment: the character that a push may stand for, or
the symbol of the kind. -/
def describe (instruction : Instruction) : String :=
  match instruction.kind with
  | .push =>
    if isShown instruction.value then
      Text.padRight 16 instruction.text ++ " ; " ++
        Text.quotedChar (Char.ofNat instruction.value.toInt.toNat)
    else
      instruction.text
  | kind =>
    Text.padRight 16 kind.name ++ " ; " ++
      String.singleton (kind.symbol?.getD (Char.ofNat 0))

/-- The depth at which an instruction is shown.  An endif stands at the depth of
its opener. -/
def depthAt (depth : Nat) (kind : Kind) : Nat :=
  match kind with
  | .endif => depth - 1
  | _ => depth

/-- The depth after an instruction. -/
def depthAfter (depth : Nat) (kind : Kind) : Nat :=
  match kind with
  | .ifOpen | .elseOpen => depth + 1
  | .endif => depth - 1
  | _ => depth

/-- One line of a listing. -/
def line (index depth : Nat) (instruction : Instruction) : String :=
  Text.zeroPadded 4 index ++ "  " ++ Text.padRight 7 instruction.position.text ++ " " ++
    "".pushn ' ' (2 * depthAt depth instruction.kind) ++ describe instruction ++ "\n"

/-- The lines from an index on. -/
def lines (index depth : Nat) : Program -> List String
  | [] => []
  | instruction :: rest =>
    line index depth instruction ::
      lines (index + 1) (depthAfter depth instruction.kind) rest

/-- The line that counts the instructions. -/
def header (program : Program) : String :=
  "; " ++ toString program.length ++ " instructions\n"

/-- The line that names a listing; a listing without a name has none. -/
def title (name : String) : String :=
  if name = "" then "" else "; === " ++ name ++ " ===\n"

end Listing

/-- The listing of a program under a name. -/
def Program.listing (name : String) (program : Program) : String :=
  Listing.title name ++ Listing.header program ++ String.join (Listing.lines 0 0 program)

end GlyphStack
