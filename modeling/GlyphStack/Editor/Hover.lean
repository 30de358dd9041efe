import GlyphStack.Editor.Diagnostic

/-!
# Hover texts and completions

The hover text of a character describes the instruction that was read there.
The completions are the operators of the language.
-/

namespace GlyphStack
namespace Editor

/-- What a kind does to the stack. -/
def stackEffect (kind : Kind) : String :=
  match kind.pops? with
  | none => "Stack: clears all values"
  | some pops =>
    "Stack: pops " ++ toString pops ++ ", pushes " ++ toString kind.pushes

/-- The heading of an instruction: its name, and its value or symbol. -/
def heading (instruction : Instruction) : String :=
  match instruction.kind with
  | .push => "**push** `" ++ toString instruction.value.toInt ++ "`"
  | kind =>
    "**" ++ kind.name ++ "** `" ++
      String.singleton (kind.symbol?.getD (Char.ofNat 0)) ++ "`"

/-- The description of an instruction. -/
def describe (instruction : Instruction) : String :=
  heading instruction ++ " (" ++ instruction.kind.classOf.name ++ ")\n\n" ++
    instruction.kind.doc ++ "\n\n" ++ stackEffect instruction.kind

/-- The instruction of a program that was read at a place. -/
def instructionAt? (program : Program) (cursor : Cursor) : Option Instruction :=
  program.find? fun instruction =>
    instruction.position.line == cursor.line + 1 &&
      instruction.position.column == cursor.character + 1

/-- The hover text of a place.  A text that is no program has none. -/
def hover? (width : Width) (source : List Glyph) (cursor : Cursor) : Option String :=
  match Program.ofSource width source with
  | .error _ => none
  | .ok program => (instructionAt? program cursor).map describe

/-- An operator that an editor may offer. -/
structure Completion where
  /-- The character. -/
  symbol : Char
  /-- What it does. -/
  kind : Kind
  deriving DecidableEq, Repr

/-- The operators in the order of their characters. -/
def completions : List Completion :=
  (Kind.operators.map fun operator =>
      { symbol := operator.1, kind := operator.2 }).mergeSort
    fun first second => first.symbol ≤ second.symbol

end Editor
end GlyphStack
