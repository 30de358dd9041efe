/-!
# Positions in a source text
-/

namespace GlyphStack

/-- A place in a source text.  Offsets count bytes from zero; lines count from
one; columns count characters of their line from one. -/
structure Position where
  /-- Byte offset from the start of the text. -/
  offset : Int
  /-- Line, from one. -/
  line : Int
  /-- Column in characters, from one. -/
  column : Int
  deriving DecidableEq, Repr, Inhabited

namespace Position

/-- The first place of every text. -/
def start : Position :=
  { offset := 0, line := 1, column := 1 }

/-- The position of something that has no place in a text. -/
def nowhere : Position :=
  { offset := 0, line := 0, column := 0 }

/-- The place reached by passing one item of the given byte length.  Only a
newline starts a new line. -/
def advance (position : Position) (bytes : Nat) (newline : Bool) : Position :=
  if newline then
    { offset := position.offset + bytes, line := position.line + 1, column := 1 }
  else
    { offset := position.offset + bytes, line := position.line,
      column := position.column + 1 }

/-- The line and column of a position, as messages give them. -/
def text (position : Position) : String :=
  toString position.line ++ ":" ++ toString position.column

end Position

end GlyphStack
