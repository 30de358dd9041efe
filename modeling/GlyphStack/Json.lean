import GlyphStack.Decimal

/-!
# JSON values

The messages of an editor arrive as JSON.  A number is kept as it was written, so
that it may be beyond double precision.
-/

namespace GlyphStack

/-- A JSON value. -/
inductive Json where
  /-- The null value. -/
  | null
  /-- A truth value. -/
  | bool (value : Bool)
  /-- The number `mantissa / 10 ^ places`, with as many decimal places as it was
  written with. -/
  | number (mantissa : Int) (places : Nat)
  /-- A text. -/
  | string (value : String)
  /-- A list of values. -/
  | array (items : List Json)
  /-- A list of named values. -/
  | object (members : List (String × Json))
  deriving Repr, Inhabited

namespace Json

mutual

/-- Whether double precision has room for every number in a value, however deep
it stands. -/
def fitsDouble : Json -> Bool
  | .number mantissa places => !Decimal.overflows ⟨mantissa.natAbs, -places⟩
  | .array items => allFitDouble items
  | .object members => membersFitDouble members
  | .null => true
  | .bool _ => true
  | .string _ => true

/-- Whether double precision has room for every number in a list of values. -/
def allFitDouble : List Json -> Bool
  | [] => true
  | item :: items => item.fitsDouble && allFitDouble items

/-- Whether double precision has room for every number in the members of an
object. -/
def membersFitDouble : List (String × Json) -> Bool
  | [] => true
  | member :: members => memberFitsDouble member && membersFitDouble members

/-- Whether double precision has room for every number in a named value. -/
def memberFitsDouble : String × Json -> Bool
  | (_, value) => value.fitsDouble

end

end Json

end GlyphStack
