import GlyphStack.Toml.Datetime

/-!
# The grammar of TOML

A document is a sequence of lines: headers of tables, and keys with their
values.  What the lines mean together is not looked at here.
-/

namespace GlyphStack
namespace Toml

mutual

/-- A value as it is written. -/
inductive Node where
  /-- A value without parts. -/
  | scalar (value : Value)
  /-- Values between brackets. -/
  | array (items : List Node)
  /-- Keys with values between braces. -/
  | inline (entries : List Entry)

/-- A key with its value. -/
inductive Entry where
  /-- The path of names and the value. -/
  | mk (key : Key) (value : Node)

end

instance : Inhabited Node :=
  ⟨.array []⟩

/-- A line of a document. -/
inductive Statement where
  /-- The header of a table. -/
  | table (key : Key)
  /-- The header of one more table of a list of tables. -/
  | tables (key : Key)
  /-- A key with its value. -/
  | entry (entry : Entry)

/-! ## Filling -/

/-- Pass blanks. -/
def skipBlanks (text : List Char) : List Char :=
  text.dropWhile isBlank

/-- Pass blanks, line ends and comments, given whether the text starts inside a
comment. -/
def skipFillingFrom (inComment : Bool) : List Char -> List Char
  | [] => []
  | c :: rest =>
    if inComment then
      skipFillingFrom (!isLineEnd c) rest
    else if isBlank c || isLineEnd c then
      skipFillingFrom false rest
    else if c == '#' then
      skipFillingFrom true rest
    else
      c :: rest

/-- Pass blanks, line ends and comments. -/
def skipFilling (text : List Char) : List Char :=
  skipFillingFrom false text

/-! ## Keys -/

/-- Whether a character may stand in a name without quotes. -/
def isBareChar (c : Char) : Bool :=
  c.isAlphanum || c == '_' || c == '-'

/-- Read one name of a key. -/
def readName (text : List Char) : Option (String × List Char) :=
  if text.head?.any fun c => c == basicQuote || c == literalQuote then
    readLineString text
  else
    let name := text.takeWhile isBareChar
    if name.isEmpty then none
    else some (String.ofList name, text.dropWhile isBareChar)

/-- Read the names of a key, divided by points, up to the character that ends
it.  The number bounds the names left to read. -/
def readKey (stop : Char) : (room : Nat) -> List Char -> Option (Key × List Char)
  | 0, _ => none
  | room + 1, text => do
    let (name, rest) <- readName (skipBlanks text)
    match skipBlanks rest with
    | '.' :: rest =>
      let (names, after) <- readKey stop room rest
      return (name :: names, after)
    | c :: rest => if c = stop then some ([name], rest) else none
    | [] => none

/-! ## Values -/

/-- Read a value without parts. -/
def readScalar (text : List Char) : Option (Value × List Char) :=
  match text with
  | [] => none
  | 't' :: 'r' :: 'u' :: 'e' :: rest => some (.boolean true, rest)
  | 'f' :: 'a' :: 'l' :: 's' :: 'e' :: rest => some (.boolean false, rest)
  | 'i' :: 'n' :: 'f' :: rest => some (.float, rest)
  | 'n' :: 'a' :: 'n' :: rest => some (.float, rest)
  | c :: rest =>
    if c == basicQuote || c == literalQuote then
      (readString text).map fun (content, after) => (.string content, after)
    else if c == '+' || c == '-' then
      readSigned c rest
    else if c.isDigit then
      if Datetime.startsDatetime text then Datetime.read text else readUnsigned text
    else
      none

mutual

/-- Read a value.  The number bounds the work left to do. -/
def readValue : (room : Nat) -> List Char -> Option (Node × List Char)
  | 0, _ => none
  | room + 1, text =>
    match skipBlanks text with
    | '[' :: rest => (readItems room rest).map fun (items, after) => (.array items, after)
    | '\x7b' :: rest =>
      (readEntries room rest).map fun (entries, after) => (.inline entries, after)
    | rest => (readScalar rest).map fun (value, after) => (.scalar value, after)

/-- Read the items of an array up to its end. -/
def readItems : (room : Nat) -> List Char -> Option (List Node × List Char)
  | 0, _ => none
  | room + 1, text =>
    match skipFilling text with
    | ']' :: rest => some ([], rest)
    | rest => do
      let (item, rest) <- readValue room rest
      match skipFilling rest with
      | ',' :: rest =>
        let (items, after) <- readItems room rest
        return (item :: items, after)
      | ']' :: rest => return ([item], rest)
      | _ => none

/-- Read the entries of an inline table up to its end. -/
def readEntries : (room : Nat) -> List Char -> Option (List Entry × List Char)
  | 0, _ => none
  | room + 1, text =>
    match skipFilling text with
    | '\x7d' :: rest => some ([], rest)
    | rest => do
      let (key, rest) <- readKey '=' rest.length rest
      let (value, rest) <- readValue room rest
      match skipFilling rest with
      | ',' :: rest =>
        let (entries, after) <- readEntries room rest
        return (.mk key value :: entries, after)
      | '\x7d' :: rest => return ([.mk key value], rest)
      | _ => none

end

/-! ## Documents -/

/-- Whether a line ends here.  A comment may come first. -/
def isAtLineEnd (text : List Char) : Bool :=
  match skipBlanks text with
  | [] => true
  | c :: _ => isLineEnd c || c == '#'

/-- Read one statement without the end of its line. -/
def readStatement : List Char -> Option (Statement × List Char)
  | '[' :: '[' :: rest => do
    let (key, rest) <- readKey ']' rest.length rest
    let after <- Datetime.expect ']' rest
    return (.tables key, after)
  | '[' :: rest => do
    let (key, after) <- readKey ']' rest.length rest
    return (.table key, after)
  | text => do
    let (key, rest) <- readKey '=' text.length text
    let (value, after) <- readValue (2 * rest.length + 1) rest
    return (.entry (.mk key value), after)

/-- Read all statements, each on a line of its own.  The number bounds the
statements left to read. -/
def readStatements : (room : Nat) -> List Char -> Option (List Statement)
  | 0, _ => none
  | room + 1, text =>
    match skipFilling text with
    | [] => some []
    | rest => do
      let (statement, after) <- readStatement rest
      if isAtLineEnd after then
        let statements <- readStatements room after
        return statement :: statements
      else
        none

/-- The statements of a document.  Every statement takes at least one
character. -/
def statements? (text : List Char) : Option (List Statement) :=
  readStatements (text.length + 1) text

end Toml
end GlyphStack
