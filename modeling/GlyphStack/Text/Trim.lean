import GlyphStack.Text.Space
import GlyphStack.Text.Utf8

/-!
# Trimming

White space at both ends of a text is dropped.  A byte that belongs to no
character is not white space.
-/

namespace GlyphStack
namespace Text

/-- Whether a glyph is white space. -/
def isBlank : Glyph -> Bool
  | .char c => isSpace c
  | .stray _ => false

/-- Drop the white space at the start of a text. -/
def trimStart (text : List Glyph) : List Glyph :=
  text.dropWhile isBlank

/-- Drop the white space at the end of a text. -/
def trimEnd (text : List Glyph) : List Glyph :=
  (trimStart text.reverse).reverse

/-- Drop the white space at both ends of a text. -/
def trim (text : List Glyph) : List Glyph :=
  trimEnd (trimStart text)

end Text
end GlyphStack
