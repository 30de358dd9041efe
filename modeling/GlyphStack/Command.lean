import GlyphStack.Blocks
import GlyphStack.Command.Options
import GlyphStack.Engine
import GlyphStack.Lexer
import GlyphStack.Listing
import GlyphStack.Manifest.Codec
import GlyphStack.Snapshot.Codec
import GlyphStack.Text.Trim

/-!
# The command

The command reads its options, its configuration and a source text.  Then it
prints a listing, checks the blocks or runs the program.  It works in any file
system.  What is done before a run and what is done after it are separate, so
that a run may be carried out with a limit or step by step.
-/

namespace GlyphStack
namespace Command

/-- What a finished command leaves behind. -/
structure Outcome where
  /-- The exit status. -/
  exit : Nat := 0
  /-- What was printed. -/
  output : String := ""
  /-- What was printed as an error. -/
  errors : String := ""
  deriving DecidableEq, Repr

/-- Why a command fails. -/
inductive Error where
  /-- There is no valid configuration. -/
  | configuration (error : Manifest.Error)
  /-- The log level does not exist. -/
  | level (unknown : Manifest.UnknownLevel)
  /-- The log file cannot be written. -/
  | logFile (fault : FileFault)
  /-- The snapshot cannot be read. -/
  | unreadableSnapshot (path : String) (fault : FileFault)
  /-- The file is no snapshot. -/
  | notSnapshot
  /-- There is not exactly one source file. -/
  | operandCount
  /-- The source file cannot be read. -/
  | unreadableSource (path : String) (fault : FileFault)
  /-- The source is no program. -/
  | source (name : String) (error : Lexer.Error)
  /-- The program has blocks without a partner. -/
  | blocks (name : String) (count : Nat)
  /-- The snapshot has no form in which it could be written. -/
  | unencodable
  /-- The snapshot cannot be written. -/
  | snapshot (fault : FileFault)
  /-- The run failed. -/
  | run (failure : Failure)
  deriving DecidableEq, Repr

namespace Error

/-- The wording of an error. -/
def message : Error -> String
  | .configuration error => "Error: " ++ error.message
  | .level unknown => "Error: " ++ unknown.message
  | .logFile fault => "log file error: " ++ fault.message
  | .unreadableSnapshot path fault | .unreadableSource path fault =>
    "Error: cannot read " ++ path ++ ": " ++ fault.message
  | .notSnapshot => "Error: vm: unmarshal snapshot"
  | .operandCount => "Error: expected exactly one input file"
  | .source name error => "Error: " ++ name ++ ": " ++ error.message
  | .blocks name count =>
    "Error: " ++ name ++ ": " ++ toString count ++ " block issues"
  | .unencodable => "Error: encode snapshot"
  | .snapshot fault => "Error: write snapshot: " ++ fault.message
  | .run failure => "Error: " ++ failure.message

/-- Whether the command was used wrongly, so that its usage is shown. -/
def isMisuse : Error -> Bool
  | .operandCount | .unreadableSource _ _ => true
  | _ => false

/-- The exit status of an error. -/
def exit : Error -> Nat
  | .configuration _ | .level _ | .operandCount | .unreadableSource _ _ => 2
  | _ => 1

/-- What a command that fails leaves behind, besides what it has printed. -/
def outcome (output : String) (error : Error) : Outcome where
  exit := error.exit
  output := output
  errors := error.message ++ "\n" ++ if error.isMisuse then usage else ""

end Error

/-- A program that is ready to run. -/
structure Job where
  /-- The program. -/
  program : Program
  /-- The settings. -/
  settings : Manifest
  /-- Whether every executed instruction is reported. -/
  trace : Bool
  /-- The file for a snapshot after the run, or nothing. -/
  dump : String
  deriving DecidableEq, Repr

/-- The width of a job. -/
def Job.width (job : Job) : Width :=
  .ofInt job.settings.byteWidth

/-- What remains to be done once arguments, configuration and source are read. -/
inductive Plan where
  /-- Nothing. -/
  | settled (outcome : Outcome)
  /-- Serve an editor. -/
  | serve (settings : Manifest)
  /-- Run a program. -/
  | run (job : Job)
  deriving DecidableEq, Repr

/-- A source text with the name under which it is reported. -/
structure Source where
  /-- The name. -/
  name : String
  /-- The text without white space at its ends. -/
  text : List Glyph
  deriving DecidableEq, Repr

/-- Print the blocks without a partner. -/
def checkBlocks (name : String) (program : Program) : Outcome :=
  let issues := program.blockIssues
  let output := Text.joined "" (issues.map fun issue => name ++ ":" ++ issue.text ++ "\n")
  if issues.isEmpty then
    { output := output }
  else
    (Error.blocks name issues.length).outcome output

/-- Decide what becomes of a source text. -/
def planSource (options : Options) (settings : Manifest) (source : Source) : Plan :=
  match Program.ofSource (.ofInt settings.byteWidth) source.text with
  | .error error => .settled ((Error.source source.name error).outcome "")
  | .ok program =>
    if options.listing then
      .settled { output := program.listing source.name }
    else if options.check then
      .settled (checkBlocks source.name program)
    else
      .run
        { program := program,
          settings := settings,
          trace := options.trace || settings.trace,
          dump := options.dump }

variable {m : Type -> Type} [Monad m] [FileSystem m] [Manifest.Format] [Snapshot.Format]

/-- The configuration of the given file, or else the nearest one, or else the
defaults. -/
def configuration (path : String) : m (Except Error Manifest) := do
  if path = "" then
    match <- Manifest.find "." with
    | .error error => return .error (.configuration error)
    | .ok found => return .ok (found.getD .default)
  else
    match <- Manifest.load path with
    | .error error => return .error (.configuration error)
    | .ok manifest => return .ok manifest

/-- The configuration with the log level of the options, once the log file is
ready. -/
def settings (options : Options) : m (Except Error Manifest) := do
  match <- configuration options.config with
  | .error error => return .error error
  | .ok manifest =>
    if options.level != "" && !Manifest.isLevel options.level then
      return .error (.level { level := options.level })
    let level := if options.level = "" then manifest.level else options.level
    let chosen := { manifest with level := level }
    if chosen.file = "" then
      return .ok chosen
    match <- FileSystem.openFile chosen.file with
    | .error fault => return .error (.logFile fault)
    | .ok () => return .ok chosen

/-- Print a snapshot. -/
def inspect (path : String) : m Outcome := do
  match <- FileSystem.readFile path with
  | .error fault => return (Error.unreadableSnapshot path fault).outcome ""
  | .ok content =>
    match Snapshot.Format.unmarshal? content with
    | none => return Error.notSnapshot.outcome ""
    | some snapshot => return { output := snapshot.text }

/-- The source text that the options name.  A hyphen stands for the standard
input. -/
def source (input : m (List UInt8)) (options : Options) : m (Except Error Source) := do
  if options.inline != "" then
    return .ok { name := "<inline>", text := Text.trim (Glyph.ofString options.inline) }
  match options.operands with
  | [path] =>
    let content <- if path = "-" then Except.ok <$> input else FileSystem.readFile path
    match content with
    | .error fault => return .error (.unreadableSource path fault)
    | .ok bytes => return .ok { name := Path.base path, text := Text.trim (Glyph.decode bytes) }
  | _ => return .error .operandCount

/-- Do what the options ask for, up to the run of a program. -/
def plan (input : m (List UInt8)) (options : Options) : m Plan := do
  match <- settings options with
  | .error error => return .settled (error.outcome "")
  | .ok settings =>
    if options.inspect != "" then
      return .settled (<- inspect options.inspect)
    if options.service then
      return .serve settings
    match <- source input options with
    | .error error => return .settled (error.outcome "")
    | .ok source => return planSource options settings source

/-- Do what the arguments ask for, up to the run of a program. -/
def prepare (input : m (List UInt8)) (arguments : List String) : m Plan := do
  match Options.read {} arguments with
  | .help => return .settled { errors := usage }
  | .bad cause =>
    return .settled { exit := 2, errors := cause.message ++ "\n" ++ usage }
  | .options options => plan input options

/-- Write the snapshot of an engine to a file. -/
def dump (engine : Engine) (path : String) : m (Except Error Unit) := do
  match Snapshot.Format.marshal? engine.snapshot? with
  | none => return .error .unencodable
  | some content =>
    let written <- FileSystem.writeFile path content
    return written.mapError .snapshot

/-- Do what follows a run: end the line, and write the snapshot.  The output of
the run itself is not repeated.  The failure of a run outweighs that of the
snapshot. -/
def Job.finish (job : Job) (engine : Engine) : m Outcome := do
  let output := if job.settings.trailingNewline then "\n" else ""
  let failure := engine.latest.bind fun latest => latest.failure
  let written <- if job.dump = "" then pure (.ok ()) else Command.dump engine job.dump
  match failure, written with
  | some failure, _ => return (Error.run failure).outcome output
  | none, .error error => return error.outcome output
  | none, .ok () => return { output := output }

/-- Carry out the command.  A run executes at most the given number of
instructions and has the given name.  An editor service without messages ends at
once. -/
def run
    (input : m (List UInt8))
    (limit : Nat)
    (id : String)
    (arguments : List String) : m Outcome := do
  match <- prepare input arguments with
  | .settled outcome => return outcome
  | .serve _ => return {}
  | .run job =>
    let (engine, _) := (Engine.new job.width).run .unlimited limit id job.program
    let printed := (engine.latest.map fun latest => latest.state.output).getD ""
    let outcome <- job.finish engine
    return { outcome with output := printed ++ outcome.output }

end Command
end GlyphStack
