/-!
# White space

White space separates numbers in a program and is trimmed from the ends of a
source text.  It is the Unicode property `White_Space`, not only the blanks of
the ASCII range.
-/

namespace GlyphStack
namespace Text

/-- The characters with the Unicode property `White_Space`. -/
def isSpace (c : Char) : Bool :=
  let code := c.toNat
  (0x09 ≤ code && code ≤ 0x0D) || code == 0x20 || code == 0x85 || code == 0xA0 ||
    code == 0x1680 || (0x2000 ≤ code && code ≤ 0x200A) || code == 0x2028 ||
    code == 0x2029 || code == 0x202F || code == 0x205F || code == 0x3000

end Text
end GlyphStack
