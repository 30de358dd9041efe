/-!
# TOML values

A document is a table of named values.  Only the kinds of values that a
configuration may hold carry their content; of a float or a date it is enough to
know that it is one.
-/

namespace GlyphStack
namespace Toml

/-- A TOML value. -/
inductive Value where
  /-- A text. -/
  | string (text : String)
  /-- An integer of 64 bits. -/
  | integer (value : Int)
  /-- A floating-point number. -/
  | float
  /-- A truth value. -/
  | boolean (value : Bool)
  /-- A date, a time, or both. -/
  | datetime
  /-- A list of values. -/
  | array (items : List Value)
  /-- A table of named values. -/
  | table (entries : List (String × Value))
  /-- A list of tables, each opened by a header of its own. -/
  | tables (items : List (List (String × Value)))
  deriving Repr, Inhabited

/-- Named values in the order in which they were defined. -/
abbrev Table := List (String × Value)

/-- The path of names to a value. -/
abbrev Key := List String

namespace Table

/-- The value of a name. -/
def find? (table : Table) (name : String) : Option Value :=
  table.lookup name

/-- Give a name a value, in its old place if it had one. -/
def set (table : Table) (name : String) (value : Value) : Table :=
  match table with
  | [] => [(name, value)]
  | (other, old) :: rest =>
    if other = name then
      (name, value) :: rest
    else
      (other, old) :: set rest name value

end Table

end Toml
end GlyphStack
