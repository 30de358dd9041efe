import GlyphStack.Text.Layout

/-!
# Kinds of instructions

Every instruction has a kind, and every kind has a code of one byte.  The codes
that belong to no kind of the language are kept as undefined kinds, so that a
program built by hand may still hold them.
-/

namespace GlyphStack

/-- What an instruction does. -/
inductive Kind where
  /-- Push the value that the instruction carries. -/
  | push
  /-- Remove the top value and print it. -/
  | pop
  /-- Print the top value. -/
  | peek
  /-- Remove all values. -/
  | clear
  /-- Do nothing. -/
  | nonOp
  /-- Print the top value as a character. -/
  | chr
  /-- Duplicate the top value. -/
  | copy
  /-- Replace the top value by its logical negation. -/
  | not
  /-- Replace the top value by its arithmetic negation. -/
  | negate
  /-- Replace the two top values by their sum. -/
  | add
  /-- Replace the two top values by their difference. -/
  | subtract
  /-- Replace the two top values by their product. -/
  | multiply
  /-- Replace the two top values by their quotient, rounded down. -/
  | divide
  /-- Replace the two top values by their remainder, with the divisor's sign. -/
  | modulo
  /-- Replace the two top values by their bitwise conjunction. -/
  | and
  /-- Replace the two top values by their bitwise disjunction. -/
  | or
  /-- Replace the two top values by one if they are equal, and zero otherwise. -/
  | equality
  /-- Compare the two top values: is the lower one greater? -/
  | greaterThan
  /-- Compare the two top values: is the lower one less? -/
  | lessThan
  /-- Print all values as text. -/
  | toText
  /-- Open a block that runs if the top value is nonzero. -/
  | ifOpen
  /-- Close the innermost open block. -/
  | endif
  /-- Open a block that runs if the latest closed condition was false. -/
  | elseOpen
  /-- Set a mark to jump back to. -/
  | mark
  /-- Jump back to the latest mark. -/
  | jump
  /-- Jump back to the latest mark if the top value is nonzero. -/
  | jumpIf
  /-- Copy the top value into the register. -/
  | save
  /-- Push the value of the register. -/
  | load
  /-- A code that no instruction of the language has. -/
  | undefined (code : UInt8)
  deriving DecidableEq, Repr, Inhabited

/-- The groups of kinds. -/
inductive Class where
  /-- Moves, prints and removes values. -/
  | stack
  /-- Computes with the top value. -/
  | unary
  /-- Computes with the two top values. -/
  | binary
  /-- Prints the whole stack. -/
  | formatter
  /-- Steers the run. -/
  | control
  deriving DecidableEq, Repr

namespace Class

/-- The name of a class. -/
def name : Class -> String
  | .stack => "stack"
  | .unary => "unary"
  | .binary => "binary"
  | .formatter => "formatter"
  | .control => "control"

/-- All classes in the order of their numbers. -/
def all : List Class :=
  [.stack, .unary, .binary, .formatter, .control]

/-- The name of the class with the given number.  A number without a class is
shown as such. -/
def nameOfNumber (number : Int) : String :=
  if number < 0 then
    "Class(" ++ toString number ++ ")"
  else
    match all[number.toNat]? with
    | some found => found.name
    | none => "Class(" ++ toString number ++ ")"

end Class

namespace Kind

/-- The kinds of the language in the order of their codes. -/
def all : List Kind :=
  [.push, .pop, .peek, .clear, .nonOp, .chr, .copy, .not, .negate, .add, .subtract,
    .multiply, .divide, .modulo, .and, .or, .equality, .greaterThan, .lessThan,
    .toText, .ifOpen, .endif, .elseOpen, .mark, .jump, .jumpIf, .save, .load]

/-- The code of a kind. -/
def code : Kind -> UInt8
  | .push => 0x00
  | .pop => 0x01
  | .peek => 0x02
  | .clear => 0x03
  | .nonOp => 0x04
  | .chr => 0x05
  | .copy => 0x06
  | .not => 0x10
  | .negate => 0x11
  | .add => 0x20
  | .subtract => 0x21
  | .multiply => 0x22
  | .divide => 0x23
  | .modulo => 0x24
  | .and => 0x25
  | .or => 0x26
  | .equality => 0x27
  | .greaterThan => 0x28
  | .lessThan => 0x29
  | .toText => 0x40
  | .ifOpen => 0x80
  | .endif => 0x81
  | .elseOpen => 0x82
  | .mark => 0x83
  | .jump => 0x84
  | .jumpIf => 0x85
  | .save => 0x86
  | .load => 0x87
  | .undefined code => code

/-- The kind with the given code. -/
def ofCode (code : UInt8) : Kind :=
  match all.find? fun kind => kind.code == code with
  | some kind => kind
  | none => .undefined code

/-- The name of a kind. -/
def name : Kind -> String
  | .push => "push"
  | .pop => "pop"
  | .peek => "peek"
  | .clear => "empty"
  | .nonOp => "non_op"
  | .chr => "chr"
  | .copy => "copy"
  | .not => "not"
  | .negate => "negate"
  | .add => "add"
  | .subtract => "subtract"
  | .multiply => "multiply"
  | .divide => "divide"
  | .modulo => "modulo"
  | .and => "and"
  | .or => "or"
  | .equality => "equality"
  | .greaterThan => "greater_than"
  | .lessThan => "less_than"
  | .toText => "tostring"
  | .ifOpen => "if"
  | .endif => "endif"
  | .elseOpen => "else"
  | .mark => "return"
  | .jump => "jump"
  | .jumpIf => "conditional_jump"
  | .save => "save"
  | .load => "load"
  | .undefined code => "UNKNOWN(0x" ++ Text.upperHex 2 code.toNat ++ ")"

/-- The character that stands for a kind in a source text.  Literals have no
single character, and undefined kinds have none at all. -/
def symbol? : Kind -> Option Char
  | .push => none
  | .pop => some '.'
  | .peek => some ':'
  | .clear => some 'e'
  | .nonOp => some ','
  | .chr => some 'c'
  | .copy => some '?'
  | .not => some '!'
  | .negate => some '~'
  | .add => some '+'
  | .subtract => some '-'
  | .multiply => some '*'
  | .divide => some '/'
  | .modulo => some '%'
  | .and => some '&'
  | .or => some '|'
  | .equality => some '='
  | .greaterThan => some '>'
  | .lessThan => some '<'
  | .toText => some 's'
  | .ifOpen => some '('
  | .endif => some ')'
  | .elseOpen => some '\x7b'
  | .mark => some 'r'
  | .jump => some 'j'
  | .jumpIf => some 'q'
  | .save => some '$'
  | .load => some '^'
  | .undefined _ => none

/-- How many values a kind takes from the stack, or nothing if it takes all. -/
def pops? : Kind -> Option Nat
  | .clear => none
  | .push | .nonOp | .toText | .endif | .elseOpen | .mark | .jump | .load
  | .undefined _ => some 0
  | .pop | .peek | .chr | .copy | .not | .negate | .ifOpen | .jumpIf | .save => some 1
  | .add | .subtract | .multiply | .divide | .modulo | .and | .or | .equality
  | .greaterThan | .lessThan => some 2

/-- How many values a kind leaves on the stack in place of those it takes. -/
def pushes : Kind -> Nat
  | .pop | .clear | .nonOp | .toText | .endif | .elseOpen | .mark | .jump
  | .undefined _ => 0
  | .push | .peek | .chr | .not | .negate | .add | .subtract | .multiply | .divide
  | .modulo | .and | .or | .equality | .greaterThan | .lessThan | .ifOpen | .jumpIf
  | .save | .load => 1
  | .copy => 2

/-- The class of a kind. -/
def classOf : Kind -> Class
  | .push | .pop | .peek | .clear | .nonOp | .chr | .copy | .undefined _ => .stack
  | .not | .negate => .unary
  | .add | .subtract | .multiply | .divide | .modulo | .and | .or | .equality
  | .greaterThan | .lessThan => .binary
  | .toText => .formatter
  | .ifOpen | .endif | .elseOpen | .mark | .jump | .jumpIf | .save | .load => .control

/-- Whether a kind steers the run instead of only touching the stack. -/
def isControl (kind : Kind) : Bool :=
  kind.classOf == .control

/-- One sentence on what a kind does. -/
def doc : Kind -> String
  | .push => "Push a literal onto the stack."
  | .pop => "Remove the top value and print it."
  | .peek => "Print the top value without removing it."
  | .clear => "Clear the stack."
  | .nonOp => "Do nothing. Useful as a separator."
  | .chr => "Print the top value as a character without removing it."
  | .copy => "Duplicate the top value."
  | .not => "Logical negation: nonzero becomes 0, zero becomes 1."
  | .negate => "Arithmetic negation."
  | .add => "a + b"
  | .subtract => "a - b"
  | .multiply => "a * b"
  | .divide => "a / b, rounded toward negative infinity."
  | .modulo => "a mod b, taking the sign of b."
  | .and => "Bitwise and."
  | .or => "Bitwise or."
  | .equality => "1 if a equals b, else 0."
  | .greaterThan => "1 if a > b, else 0."
  | .lessThan => "1 if a < b, else 0."
  | .toText => "Print the whole stack decoded as UTF-32 text."
  | .ifOpen => "Run the block up to the matching ) if the top is nonzero."
  | .endif => "Close the innermost if or else block."
  | .elseOpen => "Run the block up to the matching ) if the previous if was not taken."
  | .mark => "Mark a jump target."
  | .jump => "Jump back to the most recent return mark."
  | .jumpIf => "Jump back to the most recent return mark if the top is nonzero."
  | .save => "Copy the top value into the register."
  | .load => "Push the register value."
  | .undefined _ => ""

end Kind

end GlyphStack
