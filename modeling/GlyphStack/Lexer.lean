import GlyphStack.Instruction
import GlyphStack.Log
import GlyphStack.Operators
import GlyphStack.Text.Quoted
import GlyphStack.Text.Space
import GlyphStack.Text.Utf8

/-!
# From source text to programs

A lexer reads a source text glyph by glyph.  Outside strings and comments every
operator becomes one instruction, and the digits between two flush points
become one push; the flush points are white space, an operator and the end of
the text.  Inside a string every character becomes a push of its code point.
Strings and comments are no flush points, so digits on both sides of a string
belong to the same number.
-/

namespace GlyphStack
namespace Lexer

/-- What the lexer is in the middle of. -/
inductive Mode where
  /-- Neither a string nor a comment. -/
  | normal
  /-- A string. -/
  | string
  /-- A string, right after a backslash. -/
  | escape
  /-- A comment. -/
  | comment
  deriving DecidableEq, Repr

namespace Mode

/-- The name of a mode. -/
def name : Mode -> String
  | .normal => "normal"
  | .string => "string"
  | .escape => "escape"
  | .comment => "comment"

/-- All modes in the order of their numbers. -/
def all : List Mode :=
  [.normal, .string, .escape, .comment]

/-- The name of the mode with the given number. -/
def nameOfNumber (number : Int) : String :=
  if number < 0 then
    "unknown"
  else
    match all[number.toNat]? with
    | some mode => mode.name
    | none => "unknown"

end Mode

/-- Why a source text is not a program. -/
inductive Error where
  /-- A character that is no operator stands outside strings and comments. -/
  | unknownSymbol (symbol : Char) (position : Position)
  /-- A byte belongs to no character. -/
  | strayByte (byte : UInt8) (position : Position)
  /-- A literal exceeds the bound of the byte width. -/
  | literal (overflow : Overflow) (position : Position)
  deriving DecidableEq, Repr

namespace Error

/-- Where an error was found.  For a number this is its first digit. -/
def position : Error -> Position
  | .unknownSymbol _ position => position
  | .strayByte _ position => position
  | .literal _ position => position

/-- The wording of an error. -/
def message : Error -> String
  | .unknownSymbol symbol position =>
    position.text ++ ": unknown symbol " ++ Text.quotedChar symbol
  | .strayByte byte position =>
    position.text ++ ": invalid UTF-8 byte 0x" ++ Text.upperHex 2 byte.toNat ++
      " at offset " ++ toString position.offset
  | .literal overflow position =>
    position.text ++ ": " ++ overflow.message

end Error

/-- A number that is being read. -/
structure Literal where
  /-- The value of the digits read so far. -/
  value : Int64
  /-- Where the first digit stands. -/
  start : Position
  deriving DecidableEq, Repr

/-- The progress of a lexer through its text. -/
structure State where
  /-- The place of the next glyph. -/
  here : Position
  /-- What the lexer is in the middle of. -/
  mode : Mode
  /-- Where the latest string or comment was opened. -/
  opened : Position
  /-- Whether a number is being read. -/
  reading : Bool
  /-- The value of its digits so far. -/
  number : Int64
  /-- Where the first digit of the latest number stands. -/
  numberAt : Position
  /-- The instructions so far, latest first. -/
  emitted : List Instruction
  deriving DecidableEq, Repr

/-- The character that opens and closes a string. -/
def quoteMark : Char := '\x22'

/-- The character that makes the next character of a string stand for itself. -/
def escapeMark : Char := '\x5c'

/-- The character that opens and closes a comment. -/
def commentMark : Char := '#'

/-- The value of a decimal digit. -/
def digit? (c : Char) : Option Int64 :=
  if '0' ≤ c ∧ c ≤ '9' then some (Int64.ofNat (c.toNat - '0'.toNat)) else none

namespace State

/-- The state before the first glyph. -/
def initial : State where
  here := .start
  mode := .normal
  opened := .nowhere
  reading := false
  number := 0
  numberAt := .nowhere
  emitted := []

/-- Begin again at the start of the text.  Where the latest string or comment was
opened and where the latest number began is not forgotten; it is of no account
until there is another one. -/
def restart (state : State) : State :=
  { state with
    here := .start,
    mode := .normal,
    reading := false,
    number := 0,
    emitted := [] }

/-- The number being read, if there is one. -/
def pending (state : State) : Option Literal :=
  if state.reading then some { value := state.number, start := state.numberAt } else none

/-- Add an instruction to the program. -/
def emit (state : State) (instruction : Instruction) : State :=
  { state with emitted := instruction :: state.emitted }

/-- Turn the number being read into a push. -/
def flush (width : Width) (state : State) : Except Error State :=
  match state.pending with
  | none => .ok state
  | some literal =>
    match Instruction.push width literal.value literal.start with
    | .ok instruction => .ok { state.emit instruction with reading := false, number := 0 }
    | .error overflow => .error (.literal overflow literal.start)

/-- Push the code point of a character of a string. -/
def emitChar (width : Width) (state : State) (c : Char) : Except Error State :=
  match Instruction.push width (Int64.ofNat c.toNat) state.here with
  | .ok instruction => .ok (state.emit instruction)
  | .error overflow => .error (.literal overflow state.here)

/-- Begin a number, unless one is being read. -/
def beginNumber (state : State) : State :=
  if state.reading then state
  else { state with reading := true, number := 0, numberAt := state.here }

/-- Append a digit to the number being read.  A number that would exceed 64 bits is
left as it is. -/
def appendDigit (state : State) (digit : Int64) : State :=
  if state.number > (Int64.maxValue - digit) / 10 then state
  else { state with number := state.number * 10 + digit }

/-- Append a digit to the number being read, or begin one with it.  The number
must stay within 64 bits and within the bound of the width. -/
def readDigit (width : Width) (state : State) (digit : Int64) : Except Error State :=
  let begun := state.beginNumber
  if begun.number > (Int64.maxValue - digit) / 10 then
    .error (.literal { value := begun.number, bytes := width.bytes } begun.numberAt)
  else
    let after := begun.appendDigit digit
    match width.check after.number with
    | .ok () => .ok after
    | .error overflow => .error (.literal overflow begun.numberAt)

/-- Add the instruction of an operator, after the number before it. -/
def readSymbol (width : Width) (state : State) (symbol : Char) : Except Error State :=
  match Kind.ofSymbol? symbol with
  | none => .error (.unknownSymbol symbol state.here)
  | some kind => do
    let flushed <- state.flush width
    return flushed.emit (.plain kind state.here)

/-- Read a character outside strings and comments. -/
def readNormal (width : Width) (state : State) (c : Char) : Except Error State :=
  if Text.isSpace c then
    state.flush width
  else if c = quoteMark then
    .ok { state with mode := .string, opened := state.here }
  else if c = commentMark then
    .ok { state with mode := .comment, opened := state.here }
  else
    match digit? c with
    | some digit => state.readDigit width digit
    | none => state.readSymbol width c

/-- Read a character of a string. -/
def readString (width : Width) (state : State) (c : Char) : Except Error State :=
  if c = escapeMark then
    .ok { state with mode := .escape }
  else if c = quoteMark then
    .ok { state with mode := .normal }
  else
    state.emitChar width c

/-- Read a character. -/
def readChar (width : Width) (state : State) (c : Char) : Except Error State :=
  match state.mode with
  | .normal => state.readNormal width c
  | .string => state.readString width c
  | .escape => { state with mode := .string }.emitChar width c
  | .comment => .ok (if c = commentMark then { state with mode := .normal } else state)

/-- Read one glyph and pass it. -/
def read (width : Width) (state : State) (glyph : Glyph) : Except Error State :=
  match glyph with
  | .stray byte => .error (.strayByte byte state.here)
  | .char c => do
    let after <- state.readChar width c
    return { after with here := state.here.advance glyph.size glyph.isNewline }

/-- What is left of a state when a glyph is refused.  An escaped character has
already ended the escape, and a digit has already been appended. -/
def breakOff (state : State) (glyph : Glyph) : State :=
  match state.mode, glyph with
  | .escape, .char _ => { state with mode := .string }
  | .normal, .char c =>
    match digit? c with
    | some digit => state.beginNumber.appendDigit digit
    | none => state
  | _, _ => state

/-- Read glyphs to the end of the text.  With an error comes the state in which
the reading breaks off. -/
def scan (width : Width) (state : State) : List Glyph -> State × Option Error
  | [] =>
    match state.flush width with
    | .ok flushed => (flushed, none)
    | .error error => (state, some error)
  | glyph :: rest =>
    match state.read width glyph with
    | .ok after => after.scan width rest
    | .error error => (state.breakOff glyph, some error)

/-- The instructions so far, in program order. -/
def program (state : State) : Program :=
  state.emitted.reverse

/-- The string or comment that is still open, and where it was opened. -/
def unterminated? (state : State) : Option (Mode × Position) :=
  match state.mode with
  | .normal => none
  | .string | .escape => some (.string, state.opened)
  | .comment => some (.comment, state.opened)

end State

end Lexer

/-- A source text with the width for its literals and the state of the latest
reading. -/
structure Lexer where
  /-- The text to read. -/
  source : List Glyph
  /-- The width that literals have to fit. -/
  width : Width
  /-- Where the latest reading ended. -/
  state : Lexer.State

namespace Lexer

/-- A lexer that has not read anything. -/
def new (source : List Glyph) : Lexer where
  source := source
  width := .standard
  state := .initial

/-- Choose the width for the literals of later readings. -/
def withWidth (lexer : Lexer) (width : Width) : Lexer :=
  { lexer with width := width }

/-- Read the whole text.  There is a program only if every glyph could be
read. -/
def tokenize (lexer : Lexer) : Lexer × Except Error Program :=
  match lexer.state.restart.scan lexer.width lexer.source with
  | (final, none) => ({ lexer with state := final }, .ok final.program)
  | (final, some error) => ({ lexer with state := final }, .error error)

/-- The string or comment in which the latest reading ended. -/
def unterminated? (lexer : Lexer) : Option (Mode × Position) :=
  lexer.state.unterminated?

end Lexer

/-- The program that a source text spells at the given width. -/
def Program.ofSource (width : Width) (source : List Glyph) : Except Lexer.Error Program :=
  ((Lexer.new source).withWidth width).tokenize.2

end GlyphStack
