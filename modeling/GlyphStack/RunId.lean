import GlyphStack.Text.Layout

/-!
# Names of runs

Every run has a name of its own: a random identifier of 128 bits, written as
thirty-two hexadecimal digits in five groups.  Version and variant are fixed
bits of the identifier.
-/

namespace GlyphStack
namespace RunId

/-- The lengths of the groups of digits. -/
def groups : List Nat := [8, 4, 4, 4, 12]

/-- Cut a sequence into pieces of the given lengths. -/
def cut : List Nat -> List Char -> List (List Char)
  | [], _ => []
  | count :: counts, digits => digits.take count :: cut counts (digits.drop count)

/-- Set the version and variant bits of a random number of 128 bits. -/
def stamp (random : Nat) : Nat :=
  let high := (random >>> 80) % (1 <<< 48)
  let middle := (random >>> 64) % (1 <<< 12)
  let low := random % (1 <<< 62)
  (high <<< 80) + (4 <<< 76) + (middle <<< 64) + (2 <<< 62) + low

/-- The identifier made from a random number. -/
def ofRandom (random : Nat) : String :=
  let digits := (Text.lowerHex 32 (stamp random)).toList
  Text.joined "-" ((cut groups digits).map String.ofList)

/-- Whether a character is a lower-case hexadecimal digit. -/
def isHexDigit (c : Char) : Bool :=
  c.isDigit || ('a' ≤ c && c ≤ 'f')

/-- Whether a text is an identifier of a run. -/
def isValid (text : String) : Bool :=
  match text.splitOn "-" with
  | [first, second, third, fourth, fifth] =>
    [first, second, third, fourth, fifth].map String.length == groups &&
      text.toList.all (fun c => c == '-' || isHexDigit c) &&
      third.toList.head? == some '4' &&
      (match fourth.toList.head? with
        | some c => c == '8' || c == '9' || c == 'a' || c == 'b'
        | none => false)
  | _ => false

end RunId
end GlyphStack
