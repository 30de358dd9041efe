import GlyphStack.Instruction

/-!
# Why a run fails
-/

namespace GlyphStack

/-- What a control instruction found missing. -/
inductive MissingControl where
  /-- An else block needs the outcome of an earlier condition. -/
  | outcome
  /-- A jump needs a mark. -/
  | mark
  /-- A conditional jump needs a mark. -/
  | conditionalMark
  deriving DecidableEq, Repr

/-- The wording of what is missing. -/
def MissingControl.message : MissingControl -> String
  | .outcome => "else without a preceding if"
  | .mark => "jump without a return mark"
  | .conditionalMark => "conditional jump without a return mark"

/-- The cause of a failure. -/
inductive Fault where
  /-- The stack has too few values. -/
  | stackUnderflow
  /-- There is no outcome or no mark to go by. -/
  | emptyControlStack (missing : MissingControl)
  /-- The divisor is zero. -/
  | divisionByZero
  /-- The register is read before anything was saved. -/
  | unsetRegister
  /-- The value is the code point of no character. -/
  | invalidCodePoint (value : Int64)
  /-- The value this far below the top is the code point of no character. -/
  | invalidCodePointAt (value : Int64) (depth : Nat)
  /-- The result does not fit 64 bits. -/
  | integerOverflow
  /-- The result exceeds the bound of the byte width. -/
  | overflow (excess : Overflow)
  /-- The output does not take what is written. -/
  | outputFull
  /-- The instruction has no effect on the stack. -/
  | noEffect (kind : Kind)
  deriving DecidableEq, Repr

/-- The wording of a cause. -/
def Fault.message : Fault -> String
  | .stackUnderflow => "stack underflow"
  | .emptyControlStack missing => "empty control stack: " ++ missing.message
  | .divisionByZero => "division by zero"
  | .unsetRegister => "register read before save"
  | .invalidCodePoint value => "invalid code point: " ++ toString value.toInt
  | .invalidCodePointAt value depth =>
    "invalid code point: " ++ toString value.toInt ++ " at depth " ++ toString depth
  | .integerOverflow => "integer overflow"
  | .overflow excess => excess.message
  | .outputFull => "write output: output full"
  | .noEffect kind => "no stack effect for " ++ kind.name

/-- A failure of a run at one of its instructions. -/
structure Failure where
  /-- The index of the instruction in its program. -/
  index : Nat
  /-- The instruction. -/
  instruction : Instruction
  /-- The cause. -/
  fault : Fault
  deriving DecidableEq, Repr

/-- The wording of a failure. -/
def Failure.message (failure : Failure) : String :=
  "runtime error at instruction " ++ toString failure.index ++ " (" ++
    failure.instruction.text ++ ", " ++ failure.instruction.position.text ++ "): " ++
    failure.fault.message

end GlyphStack
