import GlyphStack.Toml.Number

/-!
# Dates and times of TOML

A date, a time of day, or a date with a time, which may have an offset.  The
seconds of a time may be left out.
-/

namespace GlyphStack
namespace Toml
namespace Datetime

/-- Read a number of exactly the given number of digits, within bounds. -/
def field (count least greatest : Nat) (text : List Char) : Option (Nat × List Char) :=
  let digits := text.take count
  let value := digitsValue 10 digits
  if digits.length = count ∧ digits.all Char.isDigit ∧ least ≤ value ∧ value ≤ greatest then
    some (value, text.drop count)
  else
    none

/-- Read a fixed character. -/
def expect (wanted : Char) : List Char -> Option (List Char)
  | c :: rest => if c = wanted then some rest else none
  | [] => none

/-- Whether a year has a twenty-ninth of February. -/
def isLeapYear (year : Nat) : Bool :=
  year % 4 == 0 && (year % 100 != 0 || year % 400 == 0)

/-- The number of days of a month. -/
def daysOf (year month : Nat) : Nat :=
  match month with
  | 2 => if isLeapYear year then 29 else 28
  | 4 | 6 | 9 | 11 => 30
  | _ => 31

/-- Read a date. -/
def date (text : List Char) : Option (List Char) := do
  let (year, text) <- field 4 0 9999 text
  let text <- expect '-' text
  let (month, text) <- field 2 1 12 text
  let text <- expect '-' text
  let (_, text) <- field 2 1 (daysOf year month) text
  return text

/-- Read the fraction of a second, if there is one. -/
def fraction : List Char -> List Char
  | '.' :: c :: rest => if c.isDigit then rest.dropWhile Char.isDigit else '.' :: c :: rest
  | text => text

/-- Read the seconds of a time, if there are any. -/
def seconds : List Char -> Option (List Char)
  | ':' :: rest => do
    let (_, text) <- field 2 0 59 rest
    return fraction text
  | text => some text

/-- Read a time of day. -/
def time (text : List Char) : Option (List Char) := do
  let (_, text) <- field 2 0 23 text
  let text <- expect ':' text
  let (_, text) <- field 2 0 59 text
  seconds text

/-- Read an offset from universal time, if there is one. -/
def offset : List Char -> Option (List Char)
  | 'Z' :: rest => some rest
  | c :: rest =>
    if c = '+' ∨ c = '-' then do
      let (_, text) <- field 2 0 24 rest
      let text <- expect ':' text
      let (_, text) <- field 2 0 60 text
      return text
    else
      some (c :: rest)
  | [] => some []

/-- Whether a text is a date, with or without a time. -/
def isDate (text : List Char) : Bool :=
  match date text with
  | some [] => true
  | some ('T' :: rest) => ((time rest).bind offset) == some []
  | _ => false

/-- Whether a text is a time of day. -/
def isTime (text : List Char) : Bool :=
  time text == some []

/-- The written form in which the letters are capitals and a blank stands for
the letter between date and time. -/
def normal : Char -> Char
  | 'z' => 'Z'
  | 't' => 'T'
  | ' ' => 'T'
  | c => c

/-- A text without the blanks at its end. -/
def trimmed (text : List Char) : List Char :=
  (text.reverse.dropWhile (· == ' ')).reverse

/-- Whether a character may stand in a date or time. -/
def isDatetimeChar (c : Char) : Bool :=
  c.isDigit || c == '-' || c == ':' || c == 'T' || c == 't' || c == ' ' || c == '.' ||
    c == 'Z' || c == 'z' || c == '+'

/-- Whether a number is the start of a date or time. -/
def startsDatetime (text : List Char) : Bool :=
  (text.dropWhile Char.isDigit).head?.any fun c => c == '-' || c == ':'

/-- Read a date or time. -/
def read (text : List Char) : Option (Value × List Char) :=
  let written := (trimmed (text.takeWhile isDatetimeChar)).map normal
  if isDate written || isTime written then
    some (.datetime, text.dropWhile isDatetimeChar)
  else
    none

end Datetime
end Toml
end GlyphStack
