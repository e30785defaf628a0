/-!
Attribute values of services: five types, of which locations carry a distance.
-/

namespace Negotiation

/-- The type of an attribute. -/
inductive ValueType where
  | bool
  | int
  | double
  | string
  | location
  deriving DecidableEq, Inhabited

/-- The name of a type. -/
def ValueType.name : ValueType → String
  | .bool => "bool"
  | .int => "int"
  | .double => "double"
  | .string => "string"
  | .location => "location"

/-- A place on the earth, in degrees. -/
structure Location where
  latitude : Float
  longitude : Float
  deriving DecidableEq, Inhabited

namespace Location

/-- The radius of the earth in kilometres. -/
def earthRadius : Float := 6372.8

/-- Degrees as radians. -/
def radians (degrees : Float) : Float := degrees * (3.14159265358979323846 / 180.0)

/-- The great-circle distance in kilometres, by the haversine formula. -/
def distance (a b : Location) : Float :=
  let lat₁ := radians a.latitude
  let lat₂ := radians b.latitude
  let sinLat := ((lat₂ - lat₁) * 0.5).sin
  let sinLon := (radians (b.longitude - a.longitude) * 0.5).sin
  let h := sinLat * sinLat + sinLon * sinLon * lat₁.cos * lat₂.cos
  2.0 * earthRadius * h.sqrt.asin

end Location

/-- The value of an attribute. -/
inductive Value where
  | bool (b : Bool)
  | int (n : Int64)
  | double (x : Float)
  | string (s : String)
  | location (l : Location)
  deriving DecidableEq, Inhabited

namespace Value

/-- The type of a value. -/
def type : Value → ValueType
  | .bool _ => .bool
  | .int _ => .int
  | .double _ => .double
  | .string _ => .string
  | .location _ => .location

/-- The integer that a value is; a double is none. -/
def int? : Value → Option Int64
  | .int n => some n
  | _ => none

/-- The number that a value is, integers widened. -/
def number? : Value → Option Float
  | .int n => some n.toFloat
  | .double x => some x
  | _ => none

/-- The location that a value is. -/
def location? : Value → Option Location
  | .location l => some l
  | _ => none

end Value

end Negotiation
