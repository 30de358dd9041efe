import GlyphStack.Text.Utf8

/-!
# Characters and strings of TOML

A document is text in UTF-8 without control characters, in which every carriage
return belongs to a line end.  Strings come in four forms: basic and literal,
each on one line or on several.
-/

namespace GlyphStack
namespace Toml

/-- Whether a character is a blank of a line. -/
def isBlank (c : Char) : Bool :=
  c == ' ' || c == '\t'

/-- Whether a character belongs to a line end. -/
def isLineEnd (c : Char) : Bool :=
  c == '\n' || c == '\r'

/-- Whether a character is a control character that no document may hold. -/
def isControl (c : Char) : Bool :=
  (c.toNat < 0x20 && c != '\t' && c != '\n' && c != '\r') || c.toNat == 0x7F

/-- Whether a character is a hexadecimal digit. -/
def isHexDigit (c : Char) : Bool :=
  c.isDigit || ('a' ≤ c && c ≤ 'f') || ('A' ≤ c && c ≤ 'F')

/-- The value of a digit in any base up to sixteen. -/
def digitValue (c : Char) : Nat :=
  if c.isDigit then c.toNat - '0'.toNat
  else if 'a' ≤ c && c ≤ 'f' then c.toNat - 'a'.toNat + 10
  else if 'A' ≤ c && c ≤ 'F' then c.toNat - 'A'.toNat + 10
  else 0

/-- The value of digits in a base. -/
def digitsValue (base : Nat) (digits : List Char) : Nat :=
  digits.foldl (fun value c => value * base + digitValue c) 0

/-! ## The text of a document -/

/-- Leave out a mark of the byte order at the start of a file. -/
def skipByteOrderMark : List UInt8 -> List UInt8
  | 0xFF :: 0xFE :: rest => rest
  | 0xFE :: 0xFF :: rest => rest
  | 0xEF :: 0xBB :: 0xBF :: rest => rest
  | bytes => bytes

/-- Whether a document may hold these characters. -/
def isClean : List Char -> Bool
  | [] => true
  | '\r' :: '\n' :: rest => isClean rest
  | '\r' :: _ => false
  | c :: rest => !isControl c && isClean rest

/-- The characters of a document. -/
def characters? (bytes : List UInt8) : Option (List Char) := do
  let chars <- Glyph.chars? (Glyph.decode (skipByteOrderMark bytes))
  if isClean chars then some chars else none

/-! ## Strings -/

/-- The quote of basic strings. -/
def basicQuote : Char := '\x22'

/-- The quote of literal strings. -/
def literalQuote : Char := '\x27'

/-- The character that starts an escape. -/
def backslash : Char := '\x5c'

/-- The number of hexadecimal digits of an escape by code point. -/
def escapeDigits? : Char -> Option Nat
  | 'x' => some 2
  | 'u' => some 4
  | 'U' => some 8
  | _ => none

/-- The character that a short escape stands for. -/
def shortEscape? : Char -> Option Char
  | 'b' => some '\x08'
  | 't' => some '\t'
  | 'n' => some '\n'
  | 'f' => some '\x0c'
  | 'r' => some '\r'
  | 'e' => some '\x1b'
  | '\x22' => some '\x22'
  | '\x5c' => some '\x5c'
  | _ => none

/-- Whether an escape may stand in a string, given the text after its
backslash. -/
def isEscape : List Char -> Bool
  | [] => false
  | c :: rest =>
    match escapeDigits? c with
    | some count =>
      let digits := rest.take count
      digits.length == count && digits.all isHexDigit
    | none => (shortEscape? c).isSome || isBlank c

/-- The raw content of a basic string of one line whose opening quote was read,
and the text after its closing quote. -/
def basicContent (content : List Char) : List Char -> Option (List Char × List Char)
  | [] => none
  | '\x5c' :: c :: rest =>
    if isEscape (c :: rest) then
      basicContent (c :: backslash :: content) rest
    else
      none
  | c :: rest =>
    if c = basicQuote then some (content.reverse, rest)
    else if isLineEnd c ∨ c = backslash then none
    else basicContent (c :: content) rest

/-- The content of a literal string of one line whose opening quote was read, and
the text after its closing quote. -/
def literalContent (content : List Char) : List Char -> Option (List Char × List Char)
  | [] => none
  | c :: rest =>
    if c = literalQuote then some (content.reverse, rest)
    else if isLineEnd c then none
    else literalContent (c :: content) rest

/-- Whether the text goes on with the given number of copies of a quote. -/
def startsWithQuotes (quote : Char) (count : Nat) (text : List Char) : Bool :=
  text.take count == List.replicate count quote

/-- Whether a sixth quote in a row may follow.  The content so far is given
latest first, without the three quotes that come next.  Two quotes before them
make five, unless a backslash stands in front of these. -/
def allowsSixth (quote : Char) (escapes : Bool) (content : List Char) : Bool :=
  !(startsWithQuotes quote 2 content) ||
    (escapes && (content.drop 2).head? == some backslash)

/-- The raw content of a string of several lines whose opening quotes were read,
and the text after its closing quotes.  Up to two quotes may stand right before
the closing ones. -/
def multilineContent (quote : Char) (escapes : Bool) (content : List Char) :
    List Char -> Option (List Char × List Char)
  | [] => none
  | c :: rest =>
    if escapes && c == backslash then
      match rest with
      | [] => none
      | next :: after =>
        if isLineEnd next || isEscape rest then
          multilineContent quote escapes (next :: backslash :: content) after
        else
          none
    else if c == quote && startsWithQuotes quote 2 rest then
      if startsWithQuotes quote 3 rest then
        if allowsSixth quote escapes content then
          multilineContent quote escapes (c :: content) rest
        else
          none
      else
        some (content.reverse, rest.drop 2)
    else
      multilineContent quote escapes (c :: content) rest

/-- Leave out a line end right after the opening quotes. -/
def skipFirstLineEnd : List Char -> List Char
  | '\n' :: rest => rest
  | '\r' :: '\n' :: rest => rest
  | text => text

/-- The blanks and line ends at the start of a text. -/
def leadingSpace (text : List Char) : List Char :=
  text.takeWhile fun c => isBlank c || isLineEnd c

/-- Replace the escapes of a raw content.  A backslash at the end of a line is
left out together with all blanks and line ends after it. -/
def unescaped : List Char -> Option (List Char)
  | [] => some []
  | c :: rest =>
    if c = backslash then
      if (leadingSpace rest).contains '\n' then
        unescaped (rest.drop (leadingSpace rest).length)
      else
        match rest with
        | [] => none
        | letter :: after =>
          match escapeDigits? letter with
          | some count => do
            let code := digitsValue 16 (after.take count)
            if code.isValidChar then
              let following <- unescaped (after.drop count)
              return Char.ofNat code :: following
            else
              none
          | none => do
            let meant <- shortEscape? letter
            let following <- unescaped after
            return meant :: following
    else do
      let following <- unescaped rest
      return c :: following
termination_by text => text.length
decreasing_by
  all_goals simp_all <;> omega

/-- Read a string of one line, as it may also stand in a key. -/
def readLineString : List Char -> Option (String × List Char)
  | '\x22' :: rest => do
    let (content, after) <- basicContent [] rest
    let text <- unescaped content
    return (String.ofList text, after)
  | '\x27' :: rest => do
    let (content, after) <- literalContent [] rest
    return (String.ofList content, after)
  | _ => none

/-- Read a string of any form. -/
def readString : List Char -> Option (String × List Char)
  | '\x22' :: '\x22' :: '\x22' :: rest => do
    let (content, after) <- multilineContent basicQuote true [] rest
    let text <- unescaped (skipFirstLineEnd content)
    return (String.ofList text, after)
  | '\x27' :: '\x27' :: '\x27' :: rest => do
    let (content, after) <- multilineContent literalQuote false [] rest
    return (String.ofList (skipFirstLineEnd content), after)
  | text => readLineString text

end Toml
end GlyphStack
