/-!
# Log entries

The parts of the toolchain report what they do as log entries.  Entries are
plain data; whoever runs a part decides what becomes of them.
-/

namespace GlyphStack
namespace Log

/-- How much an entry matters. -/
inductive Level where
  /-- A detail of interest while looking for faults. -/
  | debug
  /-- Ordinary progress. -/
  | info
  /-- A failure. -/
  | error
  deriving DecidableEq, Repr

/-- The name of a level. -/
def Level.name : Level -> String
  | .debug => "Debug"
  | .info => "Info"
  | .error => "Error"

/-- The verbosity from which entries of a level are shown. -/
def Level.verbosity : Level -> Int
  | .debug => 2
  | .info => 1
  | .error => -2

/-- The part of the toolchain that reports. -/
inductive Reporter where
  /-- The reader of source texts. -/
  | lexer
  /-- The engine that runs programs. -/
  | engine
  /-- The editor service. -/
  | editor
  /-- The command line. -/
  | command
  deriving DecidableEq, Repr

/-- The name of a reporter. -/
def Reporter.name : Reporter -> String
  | .lexer => "playlang.compiler"
  | .engine => "playlang.vm"
  | .editor => "playlang.server"
  | .command => "playlang"

/-- One log entry. -/
structure Entry where
  /-- Who reports. -/
  reporter : Reporter
  /-- How much it matters. -/
  level : Level
  /-- What is reported. -/
  text : String
  deriving DecidableEq, Repr

/-- Whether an entry is shown at a verbosity. -/
def Entry.isShown (verbosity : Int) (entry : Entry) : Bool :=
  entry.level.verbosity ≤ verbosity

/-- An entry as a line of a log. -/
def Entry.line (entry : Entry) : String :=
  entry.level.name ++ " [" ++ entry.reporter.name ++ "] " ++ entry.text

end Log
end GlyphStack
