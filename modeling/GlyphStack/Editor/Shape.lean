import GlyphStack.Json
import GlyphStack.Text.Fold

/-!
# Shapes of parameters

A shape says which JSON values may stand for a parameter.  The null value fits
every shape, since it stands for a parameter that is not given.  A record passes
over members that it does not know, and the names of members match without
regard to case, so that a member may be given more than once.  What a record
passes over is not looked at, whereas a value that may be anything is read, and
its numbers have to stay within double precision.
-/

namespace GlyphStack
namespace Editor

/-- The named members of an object, in order. -/
abbrev Members := List (String × Json)

/-- The values that are given for a name, in order. -/
def Members.given (members : Members) (name : String) : List Json :=
  (members.filter fun member => Text.sameName member.1 name).map fun member => member.2

/-- Whether a value is an integer between two bounds, written without decimal
places. -/
def isInteger (least greatest : Int) : Json -> Bool
  | .number mantissa 0 => least ≤ mantissa && mantissa ≤ greatest
  | _ => false

/-- Whether a value is a signed integer of 32 bits. -/
def isSigned : Json -> Bool :=
  isInteger (-2147483648) 2147483647

/-- Whether a value is an unsigned integer of 32 bits. -/
def isUnsigned : Json -> Bool :=
  isInteger 0 4294967295

/-- Whether a value is a text. -/
def isText : Json -> Bool
  | .string _ => true
  | _ => false

mutual

/-- The values that may stand for a parameter. -/
inductive Shape where
  /-- Any value whose numbers stay within double precision. -/
  | anything
  /-- A truth value. -/
  | flag
  /-- A text. -/
  | text
  /-- A signed integer of 32 bits. -/
  | signed
  /-- An unsigned integer of 32 bits. -/
  | unsigned
  /-- The name of a task, which is a signed integer or a text. -/
  | token
  /-- A list of values of one shape. -/
  | list (items : Shape)
  /-- An object. -/
  | record (fields : List Field)
  /-- A value of one of two shapes. -/
  | choice (first second : Shape)

/-- A member that a record knows. -/
inductive Field where
  /-- All values that are given have to fit. -/
  | every (name : String) (shape : Shape)
  /-- Of all values that are given only the last one has to fit. -/
  | latest (name : String) (shape : Shape)

end

mutual

/-- Whether a value fits a shape. -/
def Shape.admits : Shape -> Json -> Bool
  | _, .null => true
  | .anything, json => json.fitsDouble
  | .flag, .bool _ => true
  | .flag, _ => false
  | .text, json => isText json
  | .signed, json => isSigned json
  | .unsigned, json => isUnsigned json
  | .token, json => isSigned json || isText json
  | .list items, .array values => values.all fun value => items.admits value
  | .list _, _ => false
  | .record fields, .object members => admitsAll fields members
  | .record _, _ => false
  | .choice first second, json => first.admits json || second.admits json

/-- Whether the members of an object fit the members that a record knows. -/
def admitsAll : List Field -> Members -> Bool
  | [], _ => true
  | field :: fields, members => field.admits members && admitsAll fields members

/-- Whether the values that are given for a member of a record fit. -/
def Field.admits : Field -> Members -> Bool
  | .every name shape, members => (members.given name).all fun value => shape.admits value
  | .latest name shape, members =>
    (members.given name).getLast?.all fun value => shape.admits value

end

end Editor
end GlyphStack
