import GlyphStack.Blocks
import GlyphStack.Lexer.Report

/-!
# Diagnostics

A text that is no program has one error.  A program has a warning if a string or
comment is left open, and one for every block without a partner.  A diagnostic
covers one character.  What is published of its place are two numbers of 32 bits.
-/

namespace GlyphStack
namespace Editor

/-- A place in a document.  Lines and characters count from zero. -/
structure Cursor where
  /-- The line. -/
  line : Nat
  /-- The character of the line. -/
  character : Nat
  deriving DecidableEq, Repr

/-- A place in a document as it is published. -/
structure Place where
  /-- The line, which wraps around if there are too many. -/
  line : UInt32
  /-- The character of the line, which wraps around in the same way. -/
  character : UInt32
  deriving DecidableEq, Repr

/-- What an editor reads as the place. -/
def Place.cursor (place : Place) : Cursor where
  line := place.line.toNat
  character := place.character.toNat

instance : Coe Place Cursor where
  coe := Place.cursor

/-- The place in a document of a position in a source text. -/
def Place.ofPosition (position : Position) : Place where
  line := .ofInt (position.line - 1)
  character := .ofInt (position.column - 1)

/-- How much a diagnostic matters. -/
inductive Severity where
  /-- The text is no program. -/
  | error
  /-- The program looks wrong. -/
  | warning
  deriving DecidableEq, Repr

/-- The number of a severity. -/
def Severity.number : Severity -> Nat
  | .error => 1
  | .warning => 2

/-- Something that is wrong with one character of a document. -/
structure Diagnostic where
  /-- The character. -/
  start : Place
  /-- How much it matters. -/
  severity : Severity
  /-- What is wrong. -/
  message : String
  deriving DecidableEq, Repr

namespace Diagnostic

/-- The place right after the character. -/
def stop (diagnostic : Diagnostic) : Place :=
  { diagnostic.start with character := diagnostic.start.character + 1 }

/-- The name under which diagnostics are published. -/
def source : String := "playlang-lsp"

/-- A diagnostic at a position of a source text. -/
def atPosition (position : Position) (severity : Severity) (message : String) :
    Diagnostic where
  start := .ofPosition position
  severity := severity
  message := message

end Diagnostic

/-- The diagnostics of a text at a byte width. -/
def diagnose (width : Width) (source : List Glyph) : List Diagnostic :=
  match ((Lexer.new source).withWidth width).tokenize with
  | (_, .error error) => [.atPosition error.position .error error.message]
  | (lexer, .ok program) =>
    let unterminated :=
      match lexer.unterminated? with
      | none => []
      | some (mode, opened) =>
        [Diagnostic.atPosition opened .warning ("unterminated " ++ mode.name)]
    unterminated ++ program.blockIssues.map fun issue =>
      .atPosition issue.instruction.position .warning issue.message

/-- What is reported while a text is read. -/
def readingReport (width : Width) (source : List Glyph) : List Log.Entry :=
  ((Lexer.new source).withWidth width).report

end Editor
end GlyphStack
