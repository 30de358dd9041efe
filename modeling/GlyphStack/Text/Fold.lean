/-!
# Names without regard to case

Keys of configuration files and messages match names of the program without
regard to case.  The names are written in ASCII, so only the characters that
differ in case from an ASCII letter matter: the letters themselves, the Kelvin
sign and the long s.
-/

namespace GlyphStack
namespace Text

/-- The lower-case form of a character that differs only in case from an ASCII
letter. -/
def foldChar (c : Char) : Char :=
  match c.toNat with
  | 0x212A => 'k'
  | 0x017F => 's'
  | _ => c.toLower

/-- Whether a text and an ASCII name differ at most in case. -/
def sameName (text name : String) : Bool :=
  text.toList.map foldChar == name.toList.map foldChar

end Text
end GlyphStack
