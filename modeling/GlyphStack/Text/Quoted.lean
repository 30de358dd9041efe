import GlyphStack.Text.Layout
import GlyphStack.Text.Printable

/-!
# Quoted characters and strings

Messages quote characters in single quotes and strings in double quotes.  The
quote in use and the backslash are escaped, printable characters stand for
themselves, and the rest is written as a short escape or by code point.
-/

namespace GlyphStack
namespace Text

/-- The letter of the short escape of a control character, if it has one. -/
def shortEscape? (c : Char) : Option Char :=
  match c.toNat with
  | 0x07 => some 'a'
  | 0x08 => some 'b'
  | 0x09 => some 't'
  | 0x0A => some 'n'
  | 0x0B => some 'v'
  | 0x0C => some 'f'
  | 0x0D => some 'r'
  | _ => none

/-- One character as it appears between the given quotes. -/
def escaped (quote c : Char) : String :=
  if c == quote || c == '\x5c' then
    String.ofList ['\x5c', c]
  else if isPrintable c then
    String.singleton c
  else
    match shortEscape? c with
    | some letter => String.ofList ['\x5c', letter]
    | none =>
      if c.toNat < 0x80 then "\\x" ++ lowerHex 2 c.toNat
      else if c.toNat < 0x10000 then "\\u" ++ lowerHex 4 c.toNat
      else "\\U" ++ lowerHex 8 c.toNat

/-- A character in single quotes. -/
def quotedChar (c : Char) : String :=
  "'" ++ escaped '\x27' c ++ "'"

/-- A string in double quotes. -/
def quotedString (text : String) : String :=
  "\"" ++ text.toList.foldl (fun written c => written ++ escaped '\x22' c) "" ++ "\""

end Text
end GlyphStack
