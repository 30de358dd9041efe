import GlyphStack.Decimal
import GlyphStack.Toml.Text
import GlyphStack.Toml.Value

/-!
# Numbers of TOML

Integers are decimal, hexadecimal, octal or binary and have to fit 64 bits.
Floats have to stay below the overflow of double precision.  Underscores may
stand between digits, and a decimal has no leading zeros.
-/

namespace GlyphStack
namespace Toml

/-- Whether every underscore follows a digit and the last character is a digit.
The digits of all bases count. -/
def underscoresFit (text : List Char) : Bool :=
  go false text
where
  /-- The same, given whether the character before was a digit. -/
  go (afterDigit : Bool) : List Char -> Bool
    | [] => afterDigit
    | c :: rest => !(c == '_' && !afterDigit) && go (isHexDigit c) rest

/-- Whether a number starts with a zero that it does not need. -/
def hasLeadingZero : List Char -> Bool
  | ['0'] => false
  | '0' :: c :: _ => c != 'b' && c != 'o' && c != 'x'
  | sign :: '0' :: _ :: _ => sign == '+' || sign == '-'
  | _ => false

/-- A text without its underscores. -/
def withoutUnderscores (text : List Char) : List Char :=
  text.filter (· != '_')

/-- The digits of a number and their base. -/
def baseAndDigits : List Char -> Nat × List Char
  | '0' :: 'x' :: digits => (16, digits)
  | '0' :: 'o' :: digits => (8, digits)
  | '0' :: 'b' :: digits => (2, digits)
  | digits => (10, digits)

/-- The value of an integer without its range. -/
def exactInteger (text : List Char) : Int :=
  match withoutUnderscores text with
  | '-' :: digits => -(digitsValue 10 digits : Int)
  | '+' :: digits => digitsValue 10 digits
  | unsigned =>
    let (base, digits) := baseAndDigits unsigned
    digitsValue base digits

/-- The value of an integer. -/
def integer? (text : List Char) : Option Value :=
  let value := exactInteger text
  if underscoresFit text && !hasLeadingZero text &&
      decide (Int64.minValue.toInt ≤ value) && decide (value ≤ Int64.maxValue.toInt) then
    some (.integer value)
  else
    none

/-! ## Floats -/

/-- The parts of a text between the characters of a class, without empty parts. -/
def partsBetween (separates : Char -> Bool) (text : List Char) : List (List Char) :=
  go [] text
where
  /-- The same, given the part being read, latest character first. -/
  go (part : List Char) : List Char -> List (List Char)
    | [] => if part.isEmpty then [] else [part.reverse]
    | c :: rest =>
      if separates c then
        if part.isEmpty then go [] rest else part.reverse :: go [] rest
      else
        go (c :: part) rest

/-- Whether every point is followed by a digit. -/
def pointsFit : List Char -> Bool
  | [] => true
  | ['.'] => false
  | '.' :: c :: rest => c.isDigit && pointsFit (c :: rest)
  | _ :: rest => pointsFit rest

/-- A text without its sign. -/
def withoutSign : List Char -> List Char
  | '+' :: rest => rest
  | '-' :: rest => rest
  | text => text

/-- The exponent of a decimal, after its letter. -/
def exponent? (text : List Char) : Option Int :=
  let digits := withoutSign text
  if digits.isEmpty || !digits.all Char.isDigit then
    none
  else if text.head? == some '-' then
    some (-(digitsValue 10 digits : Int))
  else
    some (digitsValue 10 digits)

/-- Read a decimal number with an optional fraction and exponent. -/
def decimal? (text : List Char) : Option Decimal :=
  let unsigned := withoutSign text
  let whole := unsigned.takeWhile Char.isDigit
  let afterWhole := unsigned.dropWhile Char.isDigit
  let (fraction, afterFraction) :=
    match afterWhole with
    | '.' :: rest => (rest.takeWhile Char.isDigit, rest.dropWhile Char.isDigit)
    | rest => ([], rest)
  let power? :=
    match afterFraction with
    | [] => some 0
    | 'e' :: rest => exponent? rest
    | 'E' :: rest => exponent? rest
    | _ => none
  if whole.isEmpty && fraction.isEmpty then
    none
  else
    power?.map fun power =>
      { digits := digitsValue 10 (whole ++ fraction), power := power - fraction.length }

/-- Whether a text is a float. -/
def isFloat (text : List Char) : Bool :=
  let parts := partsBetween (fun c => c == '.' || c == 'e' || c == 'E') text
  parts.all underscoresFit && !(parts.head?.any hasLeadingZero) && pointsFit text &&
    (decimal? (withoutUnderscores text)).any fun decimal => !decimal.overflows

/-- Whether a character may stand in a float. -/
def isFloatChar (c : Char) : Bool :=
  c.isDigit || c == '_' || c == '.' || c == '-' || c == '+' || c == 'e' || c == 'E'

/-- Read a decimal integer or a float that starts with a digit.  The text before
it is given, which is nothing or a sign. -/
def readDecimal (sign text : List Char) : Option (Value × List Char) :=
  let isDecimalChar (c : Char) : Bool := c.isDigit || c == '_'
  let digits := text.takeWhile isDecimalChar
  let rest := text.dropWhile isDecimalChar
  if rest.head?.any (fun c => c == '.' || c == 'e' || c == 'E') then
    let float := text.takeWhile isFloatChar
    if isFloat (sign ++ float) then some (.float, text.dropWhile isFloatChar) else none
  else
    (integer? (sign ++ digits)).map fun value => (value, rest)

/-- Read an integer with a base other than ten, after its mark. -/
def readBased (mark : Char) (isBaseDigit : Char -> Bool) (text : List Char) :
    Option (Value × List Char) :=
  let isBasedChar (c : Char) : Bool := isBaseDigit c || c == '_'
  if text.head?.any isBaseDigit then
    (integer? ('0' :: mark :: text.takeWhile isBasedChar)).map fun value =>
      (value, text.dropWhile isBasedChar)
  else
    none

/-- Read a number that starts with a digit. -/
def readUnsigned : List Char -> Option (Value × List Char)
  | '0' :: 'x' :: rest => readBased 'x' isHexDigit rest
  | '0' :: 'o' :: rest => readBased 'o' (fun c => '0' ≤ c && c ≤ '7') rest
  | '0' :: 'b' :: rest => readBased 'b' (fun c => c == '0' || c == '1') rest
  | text => readDecimal [] text

/-- Read a number after its sign. -/
def readSigned (sign : Char) : List Char -> Option (Value × List Char)
  | 'i' :: 'n' :: 'f' :: rest => some (.float, rest)
  | 'n' :: 'a' :: 'n' :: rest => some (.float, rest)
  | c :: rest => if c.isDigit then readDecimal [sign] (c :: rest) else none
  | [] => none

end Toml
end GlyphStack
