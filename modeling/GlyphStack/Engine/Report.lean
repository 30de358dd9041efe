import GlyphStack.Engine
import GlyphStack.Log

/-!
# What an engine reports

A run is reported from its start to its end.  With tracing on, every instruction
is reported before it acts, also one that is then not executed because the limit
is reached.
-/

namespace GlyphStack
namespace Engine

/-- An entry of the engine. -/
def entry (level : Log.Level) (text : String) : Log.Entry :=
  { reporter := .engine, level := level, text := text }

namespace Moment

/-- An executed instruction as a line of the trace: its index, its name, the
height of the stack and the number of open blocks. -/
def traceLine (moment : Moment) : String :=
  "[" ++ Text.zeroPadded 4 moment.index ++ "] " ++
    Text.padRight 16 moment.instruction.text ++
    " depth=" ++ toString moment.state.machine.stack.size ++
    " scopes=" ++ toString moment.state.frames.length

/-- Whether the instruction closes a block while none is open. -/
def endsProgram (moment : Moment) : Bool :=
  moment.instruction.kind == .endif && moment.state.frames.isEmpty

/-- What is reported before an instruction acts. -/
def traceReport (trace : Bool) (moment : Moment) : List Log.Entry :=
  if trace then [entry .debug moment.traceLine] else []

/-- What is reported about an executed instruction. -/
def report (trace : Bool) (id : String) (moment : Moment) : List Log.Entry :=
  moment.traceReport trace ++
    if moment.endsProgram then
      [entry .debug ("run " ++ id ++ ": endif at top level, stopping")]
    else
      []

end Moment

/-- What is reported when a run starts. -/
def startReport (id : String) (program : Program) : List Log.Entry :=
  [entry .info ("run " ++ id ++ ": " ++ toString program.length ++ " instructions")]

/-- What is reported when a run has come to its end. -/
def endReport
    (trace : Bool)
    (id : String)
    (final : State)
    (ending : Ending) : List Log.Entry :=
  match ending with
  | .finished =>
    [entry .info ("run " ++ id ++ ": finished after " ++ toString final.steps ++ " steps")]
  | .failed failure => [entry .error ("run " ++ id ++ ": " ++ failure.message)]
  | .stopped next => next.traceReport trace

/-- What is reported about a run: its executed instructions and how it ended. -/
def report
    (trace : Bool)
    (id : String)
    (program : Program)
    (moments : List Moment)
    (final : State)
    (ending : Ending) : List Log.Entry :=
  startReport id program ++ moments.flatMap (Moment.report trace id) ++
    endReport trace id final ending

end Engine
end GlyphStack
