import GlyphStack.Text.Layout
import GlyphStack.Text.Quoted

/-!
# Options of the command

Options stand before the file.  An option starts with one or two hyphens.  Its
value follows an equals sign or, unless the option is a switch, is the next
argument.  The first argument that is no option ends the options, and so does a
double hyphen, which is dropped.
-/

namespace GlyphStack
namespace Command

/-- What the arguments of the command ask for.  A text that is empty asks for
nothing. -/
structure Options where
  /-- The letter of the log level. -/
  level : String := ""
  /-- The configuration file. -/
  config : String := ""
  /-- The source to run instead of a file. -/
  inline : String := ""
  /-- Print the listing instead of running. -/
  listing : Bool := false
  /-- Check the blocks instead of running. -/
  check : Bool := false
  /-- The file for a snapshot after the run. -/
  dump : String := ""
  /-- The snapshot to print. -/
  inspect : String := ""
  /-- Report every executed instruction. -/
  trace : Bool := false
  /-- Start the editor service. -/
  service : Bool := false
  /-- The arguments after the options. -/
  operands : List String := []
  deriving DecidableEq, Repr

/-- What an option sets. -/
inductive Setter where
  /-- A text. -/
  | text (set : Options -> String -> Options)
  /-- A truth value. -/
  | switch (set : Options -> Bool -> Options)

/-- An option. -/
structure Flag where
  /-- The name, without hyphens. -/
  name : String
  /-- What it sets. -/
  setter : Setter
  /-- What it is for. -/
  doc : String

/-- All options in the order of their names. -/
def flags : List Flag :=
  [ { name := "check", setter := .switch fun options isOn => { options with check := isOn },
      doc := "Lex and check block structure without running" },
    { name := "config", setter := .text fun options path => { options with config := path },
      doc := "Path to playlang.toml (default: search upward from the current directory)" },
    { name := "disasm", setter := .switch fun options isOn => { options with listing := isOn },
      doc := "Print the instruction listing instead of running" },
    { name := "dump", setter := .text fun options path => { options with dump := path },
      doc := "Write a CBOR state snapshot to this file after the run" },
    { name := "e", setter := .text fun options source => { options with inline := source },
      doc := "Run the given source instead of reading a file" },
    { name := "inspect", setter := .text fun options path => { options with inspect := path },
      doc := "Print a snapshot written by -dump and exit" },
    { name := "l", setter := .text fun options level => { options with level := level },
      doc := "Logging level: d, i, w, e or c (default from config, else w)" },
    { name := "lsp", setter := .switch fun options isOn => { options with service := isOn },
      doc := "Start the language server on stdio" },
    { name := "trace", setter := .switch fun options isOn => { options with trace := isOn },
      doc := "Log every executed instruction (needs -l d)" } ]

/-! ## Usage -/

/-- An option as a part of the usage text. -/
def Flag.usage (flag : Flag) : String :=
  "  -" ++ flag.name ++
    (match flag.setter with
      | .text _ => " string"
      | .switch _ => "") ++
    "\n    \t" ++ flag.doc ++ "\n"

/-- How the command is used. -/
def usage : String :=
  "Usage: playlang [options] FILE\n\n" ++
  "Runs a playlang program. FILE may be - for stdin.\n\n" ++
  "Options:\n" ++
  Text.joined "" (flags.map Flag.usage) ++
  "\nExamples:\n" ++
  "  playlang hello.play              # Run a file\n" ++
  "  playlang -e '3 4+.'              # Run inline source\n" ++
  "  playlang -disasm hello.play      # Show the instruction listing\n" ++
  "  playlang -dump state.cbor x.play # Keep the final state\n" ++
  "  playlang -inspect state.cbor     # Print a saved state\n"

/-! ## Reading arguments -/

/-- Why arguments are refused. -/
inductive BadOption where
  /-- An option without a name, or with too many hyphens. -/
  | malformed (argument : String)
  /-- There is no such option. -/
  | undefined (name : String)
  /-- The value of a text is missing. -/
  | needsValue (name : String)
  /-- The value of a switch is no truth value. -/
  | notTruth (name value : String)
  deriving DecidableEq, Repr

/-- The wording of refused arguments. -/
def BadOption.message : BadOption -> String
  | .malformed argument => "bad flag syntax: " ++ argument
  | .undefined name => "flag provided but not defined: -" ++ name
  | .needsValue name => "flag needs an argument: -" ++ name
  | .notTruth name value =>
    "invalid boolean value " ++ Text.quotedString value ++ " for -" ++ name ++
      ": parse error"

/-- What reading the arguments leads to. -/
inductive Reading where
  /-- The options are read. -/
  | options (options : Options)
  /-- Help was asked for. -/
  | help
  /-- The arguments are refused. -/
  | bad (cause : BadOption)
  deriving DecidableEq, Repr

/-- A single argument. -/
inductive Argument where
  /-- The argument is no option. -/
  | operand
  /-- The argument ends the options. -/
  | terminator
  /-- The argument is an option without a proper name. -/
  | malformed
  /-- The argument is an option, perhaps with a value. -/
  | option (name : String) (value : Option String)
  deriving DecidableEq, Repr

namespace Argument

/-- An option from what follows its hyphens.  The value follows the first equals
sign; a name is never empty and starts with neither sign. -/
def ofBody (body : List Char) : Argument :=
  match body with
  | [] => .malformed
  | first :: rest =>
    if first = '-' ∨ first = '=' then
      .malformed
    else
      let name := String.ofList (first :: rest.takeWhile (· != '='))
      match rest.dropWhile (· != '=') with
      | [] => .option name none
      | _ :: value => .option name (some (String.ofList value))

/-- Tell what an argument is. -/
def ofString (argument : String) : Argument :=
  match argument.toList with
  | ['-', '-'] => .terminator
  | '-' :: '-' :: body => ofBody body
  | '-' :: first :: body => ofBody (first :: body)
  | _ => .operand

end Argument

/-- The truth value of a text. -/
def truth? (text : String) : Option Bool :=
  if ["1", "t", "T", "true", "TRUE", "True"].contains text then
    some true
  else if ["0", "f", "F", "false", "FALSE", "False"].contains text then
    some false
  else
    none

/-- Read the arguments.  Of an option given twice the later value counts. -/
def Options.read (options : Options) : List String -> Reading
  | [] => .options options
  | argument :: rest =>
    match Argument.ofString argument with
    | .operand => .options { options with operands := argument :: rest }
    | .terminator => .options { options with operands := rest }
    | .malformed => .bad (.malformed argument)
    | .option name value =>
      match flags.find? fun flag => flag.name == name with
      | none =>
        if name = "h" ∨ name = "help" then .help else .bad (.undefined name)
      | some flag =>
        match flag.setter, value with
        | .switch set, none => (set options true).read rest
        | .switch set, some text =>
          match truth? text with
          | some isOn => (set options isOn).read rest
          | none => .bad (.notTruth name text)
        | .text set, some text => (set options text).read rest
        | .text set, none =>
          match rest with
          | [] => .bad (.needsValue name)
          | text :: others => (set options text).read others

end Command
end GlyphStack
