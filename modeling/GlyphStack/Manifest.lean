import GlyphStack.Disk
import GlyphStack.Path.Height
import GlyphStack.Text.Quoted
import GlyphStack.Width

/-!
# Configuration

A configuration is read from a file, whatever the form of the file.  The nearest
file counts: that of the directory itself, or of the first directory above that has
one.
-/

namespace GlyphStack

/-- The settings of the toolchain. -/
structure Manifest where
  /-- The width that values have to fit. -/
  byteWidth : Int
  /-- Whether a line end follows the output of a run. -/
  trailingNewline : Bool
  /-- Whether every executed instruction is reported. -/
  trace : Bool
  /-- The letter of the log level. -/
  level : String
  /-- The file for the log, or nothing. -/
  file : String
  /-- The file that the settings were read from, or nothing. -/
  path : String
  deriving DecidableEq, Repr

namespace Manifest

/-- The name of a configuration file. -/
def fileName : String := "playlang.toml"

/-- The letters of the log levels. -/
def levels : List String := ["d", "i", "w", "e", "c"]

/-- Whether a text is the letter of a log level. -/
def isLevel (level : String) : Bool :=
  levels.contains level

/-- How much is logged at a level.  Warnings are the measure of all other
texts. -/
def verbosity (level : String) : Int :=
  if level = "d" then 2
  else if level = "i" then 1
  else if level = "e" then -2
  else if level = "c" then -3
  else -1

/-- The settings where there is no configuration file. -/
def default : Manifest where
  byteWidth := Width.standard.bytes
  trailingNewline := true
  trace := false
  level := "w"
  file := ""
  path := ""

/-! ## Faults -/

/-- A log level that does not exist. -/
structure UnknownLevel where
  /-- What was given as a level. -/
  level : String
  deriving DecidableEq, Repr

/-- The wording of an unknown level. -/
def UnknownLevel.message (unknown : UnknownLevel) : String :=
  "unknown log level " ++ Text.quotedString unknown.level ++ " (want one of " ++
    Text.bracketed levels ++ ")"

/-- A setting that is out of range. -/
inductive Invalid where
  /-- The byte width. -/
  | width (invalid : InvalidWidth)
  /-- The log level. -/
  | level (unknown : UnknownLevel)
  deriving DecidableEq, Repr

/-- The wording of a setting that is out of range. -/
def Invalid.message : Invalid -> String
  | .width invalid => invalid.message
  | .level unknown => unknown.message

/-- What a file operation was needed for. -/
inductive Purpose where
  /-- To know where the search starts. -/
  | start
  /-- To know the content of a file. -/
  | content (path : String)
  /-- To know the place of a file. -/
  | place (path : String)
  deriving DecidableEq, Repr

/-- What is said in front of a fault. -/
def Purpose.message : Purpose -> String
  | .start => ""
  | .content path => "cannot read " ++ path ++ ": "
  | .place path => "cannot resolve path " ++ path ++ ": "

/-- Why there is no configuration. -/
inductive Error where
  /-- A file operation failed. -/
  | unreadable (purpose : Purpose) (fault : FileFault)
  /-- The file does not have the right form. -/
  | unparsable (path : String)
  /-- A setting is out of range. -/
  | invalid (path : String) (cause : Invalid)
  deriving DecidableEq, Repr

/-- The wording of an error. -/
def Error.message : Error -> String
  | .unreadable purpose fault => purpose.message ++ fault.message
  | .unparsable path => "parse error in " ++ path
  | .invalid path cause => path ++ ": " ++ cause.message

/-- Check the ranges of the settings, the byte width first. -/
def validate (manifest : Manifest) : Except Invalid Unit :=
  match Width.validate manifest.byteWidth with
  | .error invalid => .error (.width invalid)
  | .ok () =>
    if isLevel manifest.level then
      .ok ()
    else
      .error (.level { level := manifest.level })

/-! ## Reading -/

/-- The form in which settings are kept in files. -/
class Format where
  /-- Settings after those of a file with the given content were put in their
  place. -/
  unmarshal? (content : List UInt8) (manifest : Manifest) : Option Manifest

variable {m : Type -> Type} [Monad m] [FileSystem m] [Format]

/-- The shortest path from the root to where a path leads. -/
def absolute (path : String) : m (Except FileFault String) := do
  if Path.isAbsolute path then
    return .ok (Path.clean path)
  else
    let directory <- FileSystem.directory
    return directory.map fun names => Path.join (Path.ofNames names) path

/-- Read a configuration file. -/
def load (path : String) : m (Except Error Manifest) := do
  match <- FileSystem.readFile path with
  | .error fault => return .error (.unreadable (.content path) fault)
  | .ok content =>
    match Format.unmarshal? content default with
    | none => return .error (.unparsable path)
    | some manifest =>
      match <- absolute path with
      | .error fault => return .error (.unreadable (.place path) fault)
      | .ok place =>
        let located := { manifest with path := place }
        match located.validate with
        | .error cause => return .error (.invalid path cause)
        | .ok () => return .ok located

/-- Read the configuration file of a directory. -/
def loadDirectory (directory : String) : m (Except Error Manifest) :=
  load (Path.join directory fileName)

/-- Read the configuration file of the first directory that has one, from a directory
upward.  Anything with the name of a configuration file counts, and its faults are not
passed over. -/
def findFrom (directory : String) : m (Except Error (Option Manifest)) := do
  let path := Path.join directory fileName
  match <- FileSystem.stat path with
  | .ok () =>
    let found <- load path
    return found.map some
  | .error _ =>
    if Path.parent directory = directory then
      return .ok none
    else
      findFrom (Path.parent directory)
termination_by Path.height directory
decreasing_by exact Path.height_parent_lt ‹_›

/-- Read the nearest configuration file, from a directory upward. -/
def find (start : String) : m (Except Error (Option Manifest)) := do
  match <- absolute start with
  | .error fault => return .error (.unreadable .start fault)
  | .ok directory => findFrom directory

end Manifest

end GlyphStack
