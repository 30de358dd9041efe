/-!
# Source text as glyphs

A source text arrives as bytes.  It is read as a sequence of glyphs, where a
glyph is a character in UTF-8 or, where no character can be read, one stray
byte.
-/

namespace GlyphStack

/-- One item of a source text. -/
inductive Glyph where
  /-- A character. -/
  | char (c : Char)
  /-- A byte at which no character can be read. -/
  | stray (byte : UInt8)
  deriving DecidableEq, Repr, Inhabited

namespace Glyph

/-- The bytes that a glyph stands for. -/
def bytes : Glyph -> List UInt8
  | .char c => String.utf8EncodeChar c
  | .stray byte => [byte]

/-- The number of bytes that a glyph stands for. -/
def size : Glyph -> Nat
  | .char c => c.utf8Size
  | .stray _ => 1

@[simp]
theorem length_bytes (glyph : Glyph) : glyph.bytes.length = glyph.size := by
  cases glyph <;> simp [bytes, size]

/-- Whether a glyph ends a line. -/
def isNewline : Glyph -> Bool
  | .char c => c == '\n'
  | .stray _ => false

/-- The character at the start of some bytes, if there is one. -/
def firstChar? (input : List UInt8) : Option Char :=
  (input.take 4).toByteArray.utf8DecodeChar? 0

/-- Read bytes as glyphs.  Where no character can be read, one byte is passed
and reading goes on after it. -/
def decode : List UInt8 -> List Glyph
  | [] => []
  | byte :: rest =>
    match firstChar? (byte :: rest) with
    | some c => .char c :: decode (rest.drop (c.utf8Size - 1))
    | none => .stray byte :: decode rest
termination_by input => input.length
decreasing_by
  all_goals simp; try omega

/-- The bytes of a sequence of glyphs. -/
def encode (glyphs : List Glyph) : List UInt8 :=
  glyphs.flatMap bytes

/-- The glyphs of a text that is known to be made of characters. -/
def ofString (text : String) : List Glyph :=
  text.toList.map char

/-- The characters of a sequence of glyphs, or nothing if it has a stray byte. -/
def chars? : List Glyph -> Option (List Char)
  | [] => some []
  | .char c :: rest => (chars? rest).map (c :: ·)
  | .stray _ :: _ => none

end Glyph

/-- The text that some bytes spell in UTF-8, or nothing if they spell none. -/
def Text.ofBytes? (input : List UInt8) : Option String :=
  (Glyph.chars? (Glyph.decode input)).map String.ofList

/-- The bytes of a text in UTF-8. -/
def Text.toBytes (text : String) : List UInt8 :=
  text.toList.flatMap String.utf8EncodeChar

end GlyphStack
