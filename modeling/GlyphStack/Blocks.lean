import GlyphStack.Instruction

/-!
# The block structure of a program

Blocks can be checked without running the program: every endif closes the
nearest block that is still open before it.  What finds no partner is an issue.
-/

namespace GlyphStack
namespace Blocks

/-- What is wrong with an instruction that opens or closes a block. -/
inductive Problem where
  /-- An endif closes nothing. -/
  | strayEndif
  /-- An if or else is never closed. -/
  | neverClosed
  deriving DecidableEq, Repr

/-- An instruction without a partner. -/
structure Issue where
  /-- The index of the instruction. -/
  index : Nat
  /-- The instruction. -/
  instruction : Instruction
  /-- What is wrong with it. -/
  problem : Problem
  deriving DecidableEq, Repr

namespace Issue

/-- The wording of an issue. -/
def message (issue : Issue) : String :=
  match issue.problem with
  | .strayEndif => "endif without an open block"
  | .neverClosed => issue.instruction.kind.name ++ " block is never closed"

/-- The wording of an issue with its place. -/
def text (issue : Issue) : String :=
  issue.instruction.position.text ++ ": " ++ issue.message

end Issue

/-- The blocks of the part of a program that was looked at. -/
structure Scan where
  /-- The openers that are not closed yet, innermost first. -/
  opened : List (Nat × Instruction)
  /-- The endifs that closed nothing, latest first. -/
  stray : List (Nat × Instruction)
  deriving DecidableEq, Repr

namespace Scan

/-- Before the first instruction. -/
def initial : Scan :=
  { opened := [], stray := [] }

/-- Look at one more instruction. -/
def visit (scan : Scan) (index : Nat) (instruction : Instruction) : Scan :=
  match instruction.kind with
  | .ifOpen | .elseOpen => { scan with opened := (index, instruction) :: scan.opened }
  | .endif =>
    match scan.opened with
    | [] => { scan with stray := (index, instruction) :: scan.stray }
    | _ :: outer => { scan with opened := outer }
  | _ => scan

/-- Look at the instructions from an index on. -/
def visitAll (scan : Scan) (index : Nat) : Program -> Scan
  | [] => scan
  | instruction :: rest => (scan.visit index instruction).visitAll (index + 1) rest

/-- The issues of a program that was looked at to its end. -/
def issues (scan : Scan) : List Issue :=
  scan.stray.reverse.map
      (fun (index, instruction) =>
        { index := index, instruction := instruction, problem := .strayEndif }) ++
    scan.opened.reverse.map
      (fun (index, instruction) =>
        { index := index, instruction := instruction, problem := .neverClosed })

end Scan

end Blocks

/-- The instructions of a program whose blocks do not match: first the endifs
that close nothing, then the openers that are never closed. -/
def Program.blockIssues (program : Program) : List Blocks.Issue :=
  (Blocks.Scan.initial.visitAll 0 program).issues

end GlyphStack
