import Negotiation.SortedMap
import Negotiation.Service.Value

/-!
Data models: the attributes that a kind of service may or must have. A model that is built from
attributes holds them in ascending name order, each name once, and finds them by bisection.
-/

namespace Negotiation

/-- What is wrong with a model, or with values under a model. -/
inductive SchemaError where
  | duplicateAttribute (model name : String)
  | missingAttribute (name : String)
  | typeMismatch (name : String) (expected actual : ValueType)
  | unknownAttribute (name : String)
  deriving DecidableEq

/-- The wording of a schema error. -/
def SchemaError.message : SchemaError → String
  | .duplicateAttribute model name =>
    "data model '" ++ model ++ "' has duplicated attribute '" ++ name ++ "'"
  | .missingAttribute name => "missing required attribute '" ++ name ++ "'"
  | .typeMismatch name expected actual =>
    "attribute '" ++ name ++ "' has type " ++ actual.name ++ ", expected " ++ expected.name
  | .unknownAttribute name => "attribute '" ++ name ++ "' is not part of the data model"

/-- An attribute that a model declares. -/
structure Attribute where
  name : String
  type : ValueType
  required : Bool
  description : Option String := none
  deriving DecidableEq, Inhabited

/-- A data model. -/
structure Model where
  name : String
  attributes : List Attribute
  description : Option String := none
  deriving DecidableEq, Inhabited

namespace Model

/-- The first name that stands twice in a row. -/
def repeated? : List Attribute → Option String
  | a :: b :: r => if a.name = b.name then some a.name else repeated? (b :: r)
  | _ => none

/-- Attributes in ascending name order; those of one name keep theirs. -/
def byName (attributes : List Attribute) : List Attribute :=
  attributes.mergeSort fun a b => a.name ≤ b.name

/-- The model with these attributes, whose names must differ. -/
def build (name : String) (attributes : List Attribute) : Except SchemaError Model :=
  let sorted := byName attributes
  match repeated? sorted with
  | some twice => .error (.duplicateAttribute name twice)
  | none => .ok { name, attributes := sorted }

/-- The model that requires exactly the attributes of some values. -/
def generate (name : String) (values : SortedMap String Value) : Model :=
  { name, attributes := values.toList.map fun e => { name := e.1, type := e.2.type, required := true } }

/-- The model with a text about it. -/
def describe (m : Model) (text : String) : Model := { m with description := some text }

/-- Bisection for a name among `size` attributes from `base` on. -/
def bisect (attributes : List Attribute) (name : String) (base size : Nat) : Option Attribute :=
  if 1 < size then
    let half := size / 2
    match attributes[base + half]? with
    | some a =>
      if name < a.name then bisect attributes name base (size - half)
      else bisect attributes name (base + half) (size - half)
    | none => none
  else attributes[base]?.filter fun a => a.name = name
termination_by size
decreasing_by all_goals omega

/-- The attribute of a name. -/
def attribute? (m : Model) (name : String) : Option Attribute :=
  bisect m.attributes name 0 m.attributes.length

end Model

end Negotiation
