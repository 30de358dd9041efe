import GlyphStack.Manifest
import GlyphStack.Text.Fold
import GlyphStack.Toml.Document

/-!
# Configuration in TOML

Settings are kept in the tables of a TOML file.  Keys that the file does not set
leave the settings as they are, and keys that no setting has are passed over.  Keys
count without regard to case.
-/

namespace GlyphStack
namespace Manifest

/-- The settings that a file may make. -/
inductive Setting where
  /-- The width that values have to fit. -/
  | byteWidth
  /-- Whether a line end follows the output of a run. -/
  | trailingNewline
  /-- Whether every executed instruction is reported. -/
  | trace
  /-- The letter of the log level. -/
  | level
  /-- The file for the log. -/
  | file
  deriving DecidableEq, Repr

namespace Setting

/-- All settings. -/
def all : List Setting :=
  [.byteWidth, .trailingNewline, .trace, .level, .file]

/-- The table that a setting belongs to. -/
def group : Setting -> String
  | .byteWidth | .trailingNewline | .trace => "run"
  | .level | .file => "log"

/-- The key of a setting in its table. -/
def key : Setting -> String
  | .byteWidth => "byte-width"
  | .trailingNewline => "trailing-newline"
  | .trace => "trace"
  | .level => "level"
  | .file => "file"

/-- Give a setting a value, which has to be of its type. -/
def put (manifest : Manifest) : Setting -> Toml.Value -> Option Manifest
  | .byteWidth, .integer width => some { manifest with byteWidth := width }
  | .trailingNewline, .boolean isOn => some { manifest with trailingNewline := isOn }
  | .trace, .boolean isOn => some { manifest with trace := isOn }
  | .level, .string letter => some { manifest with level := letter }
  | .file, .string path => some { manifest with file := path }
  | _, _ => none

end Setting

/-- The tables of settings. -/
def groups : List String := ["run", "log"]

/-- Read an entry of the table of a group. -/
def setKey (group : String) (manifest : Manifest) (key : String) (value : Toml.Value) :
    Option Manifest :=
  match Setting.all.find? fun setting =>
    setting.group == group && Text.sameName key setting.key with
  | some setting => setting.put manifest value
  | none => some manifest

/-- Read the entries of a table one after another. -/
def setAll (set : Manifest -> String -> Toml.Value -> Option Manifest) (manifest : Manifest) :
    Toml.Table -> Option Manifest
  | [] => some manifest
  | (key, value) :: rest => do
    let updated <- set manifest key value
    setAll set updated rest

/-- Read an entry of a file.  A group has to be a table. -/
def setGroup (manifest : Manifest) (name : String) (value : Toml.Value) : Option Manifest :=
  match groups.find? fun group => Text.sameName name group with
  | none => some manifest
  | some group =>
    match value with
    | .table entries => setAll (setKey group) manifest entries
    | _ => none

/-- Settings after those of a TOML file were put in their place. -/
def ofToml? (content : List UInt8) (manifest : Manifest) : Option Manifest := do
  let table <- Toml.Table.ofBytes? content
  setAll setGroup manifest table

instance : Format where
  unmarshal? := ofToml?

end Manifest
end GlyphStack
