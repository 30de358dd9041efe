import GlyphStack.Command
import GlyphStack.Engine.Report
import GlyphStack.RunId

/-!
# The command line

The command on the files of the system.  Output is printed while the program
runs, so that a program may run forever.  The log of a run goes to the log file
of the configuration or else to the standard error.  Messages of an editor are
not read here; the editor service ends with its input.
-/

namespace GlyphStack
namespace Command

/-- The cause that the system gives in its own words, which start with a capital
letter. -/
def causeOfWords (words : String) : FileCause :=
  let wording := words.decapitalize
  let known : List FileCause := [.notFound, .notDirectory, .isDirectory, .invalid, .tooLong]
  (known.find? fun cause => cause.message == wording).getD (.other wording)

/-- The cause of a failed operation of the system. -/
def causeOf : IO.Error -> FileCause
  | .noFileOrDirectory _ _ _ => .notFound
  | .inappropriateType _ _ words => causeOfWords words
  | .invalidArgument _ _ words => causeOfWords words
  | .permissionDenied _ _ words => causeOfWords words
  | error => .other (toString error)

/-- Carry out an operation of the system. -/
def attempt {α : Type} (action : FileAction) (operation : IO α) : IO (Except FileFault α) := do
  try
    return .ok (<- operation)
  catch error =>
    return .error { action := action, cause := causeOf error }

/-- Carry out an operation of the system on a path. -/
def attemptAt {α : Type} (action : String -> FileAction) (path : String) (operation : IO α) :
    IO (Except FileFault α) := do
  match FileCause.ofPath? path with
  | some cause => return .error { action := action path, cause := cause }
  | none => attempt (action path) operation

instance : FileSystem IO where
  directory := attempt .locating do
    let here <- IO.currentDir
    return Path.normalNames true here.toString
  stat path := attemptAt .finding path do
    let place := (<- IO.currentDir) / path
    discard place.metadata
  readFile path := do
    let opened <- attemptAt .opening path (IO.FS.Handle.mk path .read)
    match opened with
    | .error fault => return .error fault
    | .ok handle =>
      attempt (.reading path) do
        let content <- handle.readBinToEnd
        return content.toList
  openFile path := attemptAt .opening path (discard (IO.FS.Handle.mk path .append))
  writeFile path content :=
    attemptAt .opening path (IO.FS.writeBinFile path (ByteArray.mk content.toArray))

/-- Write log entries at the verbosity of the settings. -/
def record (settings : Manifest) (entries : List Log.Entry) : IO Unit := do
  let shown := entries.filter (Log.Entry.isShown (Manifest.verbosity settings.level))
  for entry in shown do
    if settings.file = "" then
      IO.eprintln entry.line
    else
      let handle <- IO.FS.Handle.mk settings.file .append
      handle.putStrLn entry.line

/-- Run a program step by step, and print its output as it comes. -/
partial def follow (job : Job) (id : String) (state : Engine.State) :
    IO (Engine.State × Engine.Ending) := do
  match job.program[state.index]? with
  | some instruction =>
    if state.gate then
      record job.settings ((state.moment instruction).report job.trace id)
  | none => pure ()
  match state.step? .unlimited job.program with
  | none => return (state, .finished)
  | some (after, failure) =>
    IO.print after.output
    let emptied := { after with output := "", offered := [] }
    match failure with
    | some failure => return (emptied, .failed failure)
    | none => follow job id emptied

/-- A random name for a run. -/
def randomId : IO String := do
  let bytes <- IO.getRandomBytes 16
  return RunId.ofRandom (bytes.toList.foldl (fun total byte => 256 * total + byte.toNat) 0)

/-- Run a program to its end. -/
def Job.carryOut (job : Job) : IO Outcome := do
  let id <- randomId
  record job.settings (Engine.startReport id job.program)
  let (final, ending) <- follow job id (Engine.State.initial job.width)
  record job.settings (Engine.endReport job.trace id final ending)
  let ready := (Engine.new job.width).reset final.machine id job.program
  job.finish (ready.keep final ending.failure?)

/-- All bytes of the standard input. -/
def standardInput : IO (List UInt8) := do
  let stream <- IO.getStdin
  let mut content := ByteArray.empty
  repeat
    let piece <- stream.read 65536
    if piece.isEmpty then
      break
    content := content ++ piece
  return content.toList

end Command
end GlyphStack

/-- The command line. -/
def main (arguments : List String) : IO UInt32 := do
  let plan <- GlyphStack.Command.prepare GlyphStack.Command.standardInput arguments
  let outcome <-
    match plan with
    | .settled outcome => pure outcome
    | .serve _ => do
      discard GlyphStack.Command.standardInput
      pure {}
    | .run job => job.carryOut
  IO.print outcome.output
  IO.eprint outcome.errors
  return outcome.exit.toUInt32
