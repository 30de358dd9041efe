/-!
# Laying out numbers and columns

The small pieces of fixed-width text that listings, traces and messages are
made of: zero-padded decimals, hexadecimal digits and left-aligned columns.
-/

namespace GlyphStack
namespace Text

/-- Fill a text on the left up to a number of characters. -/
def padLeft (fill : Char) (columns : Nat) (text : String) : String :=
  "".pushn fill (columns - text.length) ++ text

/-- Fill a text with blanks on the right up to a number of characters.  A longer
text is left as it is. -/
def padRight (columns : Nat) (text : String) : String :=
  text.pushn ' ' (columns - text.length)

/-- A decimal of at least the given number of digits. -/
def zeroPadded (columns : Nat) (value : Nat) : String :=
  padLeft '0' columns (toString value)

/-- Lower-case hexadecimal digits, at least as many as asked for. -/
def lowerHex (columns : Nat) (value : Nat) : String :=
  padLeft '0' columns (String.ofList (Nat.toDigits 16 value))

/-- Upper-case hexadecimal digits, at least as many as asked for. -/
def upperHex (columns : Nat) (value : Nat) : String :=
  padLeft '0' columns
    (String.ofList ((Nat.toDigits 16 value).map Char.toUpper))

/-- The items one after another, with a separator between neighbours. -/
def joined (separator : String) : List String -> String
  | [] => ""
  | [item] => item
  | item :: next :: rest => item ++ separator ++ joined separator (next :: rest)

/-- The items in square brackets with a blank between neighbours. -/
def bracketed (items : List String) : String :=
  "[" ++ joined " " items ++ "]"

end Text
end GlyphStack
