import GlyphStack.Text.Layout

/-!
# Paths

A path is a text of names divided by slashes.  A directory is known by its names
from the root.
-/

namespace GlyphStack
namespace Path

/-- The pieces of a text between slashes, empty pieces included. -/
def pieces : List Char -> List (List Char)
  | [] => [[]]
  | c :: rest =>
    if c = '/' then
      [] :: pieces rest
    else
      match pieces rest with
      | [] => [[c]]
      | piece :: others => (c :: piece) :: others

/-- The steps of a path, in order.  A path that ends in a slash ends in an empty
step. -/
def steps (path : String) : List String :=
  (pieces path.toList).map String.ofList

/-- Whether a path starts at the root. -/
def isAbsolute (path : String) : Bool :=
  path.toList.head? == some '/'

/-- Take one step without looking at any directory.  The names are given last
first.  A step up from the root leads nowhere else. -/
def take (rooted : Bool) (names : List String) (step : String) : List String :=
  if step = "" ∨ step = "." then
    names
  else if step = ".." then
    match names with
    | [] => if rooted then [] else [".."]
    | name :: above => if name = ".." then ".." :: name :: above else above
  else
    step :: names

/-- The names that the steps of a path lead to. -/
def normalNames (rooted : Bool) (path : String) : List String :=
  ((steps path).foldl (take rooted) []).reverse

/-- The path of a directory or file with the given names from the root. -/
def ofNames (names : List String) : String :=
  "/" ++ Text.joined "/" names

/-- The shortest path that leads to the same place, without looking at any
directory. -/
def clean (path : String) : String :=
  if isAbsolute path then
    ofNames (normalNames true path)
  else
    match normalNames false path with
    | [] => "."
    | names => Text.joined "/" names

/-- One path below another.  Empty paths do not count. -/
def join (above below : String) : String :=
  if above = "" then
    if below = "" then "" else clean below
  else if below = "" then
    clean above
  else
    clean (above ++ "/" ++ below)

/-- What a path says in front of its last slash, the slash included. -/
def front (path : String) : String :=
  String.ofList (path.toList.reverse.dropWhile (· != '/')).reverse

/-- The path of the directory that a path lies in.  Above the root there is only the
root itself. -/
def parent (path : String) : String :=
  clean (front path)

/-- The last name of a path. -/
def base (path : String) : String :=
  match ((steps path).filter (· != "")).getLast? with
  | some name => name
  | none => if path = "" then "." else "/"

end Path
end GlyphStack
