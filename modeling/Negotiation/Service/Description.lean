import Negotiation.Service.Model

/-!
Descriptions: values under a data model. Values conform to a model when every required attribute has
a value, every declared value has its type and every value is declared; faults of the first two
kinds are reported before the third, each in name order.
-/

namespace Negotiation

/-- Values and the model they follow. -/
structure Description where
  values : SortedMap String Value
  model : Model
  deriving DecidableEq

namespace Description

/-- What is wrong with the value of one attribute. -/
def faultOf (values : SortedMap String Value) (a : Attribute) : Option SchemaError :=
  match values.get? a.name with
  | none => if a.required then some (.missingAttribute a.name) else none
  | some v => if v.type = a.type then none else some (.typeMismatch a.name a.type v.type)

/-- The first fault of values under a model. -/
def fault? (values : SortedMap String Value) (model : Model) : Option SchemaError :=
  match model.attributes.findSome? (faultOf values) with
  | some e => some e
  | none => (values.keys.find? fun k => (model.attribute? k).isNone).map .unknownAttribute

/-- The description of values under a model they conform to. -/
def checked (values : SortedMap String Value) (model : Model) : Except SchemaError Description :=
  match fault? values model with
  | some e => .error e
  | none => .ok ⟨values, model⟩

/-- The description of values under the model that they generate. -/
def generated (values : SortedMap String Value) (modelName : String) : Description :=
  ⟨values, Model.generate modelName values⟩

/-- The value of an attribute. -/
def get? (d : Description) (name : String) : Option Value := d.values.get? name

/-- The first location among the values, in name order. -/
def location? (d : Description) : Option Location := d.values.values.findSome? Value.location?

end Description

end Negotiation
