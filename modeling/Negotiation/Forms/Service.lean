import Negotiation.Json.Tagged
import Negotiation.Service.Offer

/-!
JSON forms of services: values and calls and proposals carry a tag beside their content. Models and
descriptions are read as they stand, without a check.
-/

namespace Negotiation

open Json

instance : Form ValueType where
  encode t := .str t.name
  decodeWith := decodeNamed [.bool, .int, .double, .string, .location] ValueType.name

instance : Form Location where
  encode l := .obj [("latitude", encode l.latitude), ("longitude", encode l.longitude)]
  decodeWith naming j := do
    let ms ← j.members? ["latitude", "longitude"] []
    some ⟨← Members.read naming ms "latitude", ← Members.read naming ms "longitude"⟩

instance : Form Value where
  encode v := tagged "type" "value" v.type.name <|
    match v with
    | .bool b => encode b
    | .int n => encode n
    | .double x => encode x
    | .string s => encode s
    | .location l => encode l
  decodeWith naming j := do
    let (tag, content, naming) ←
      besideTag? "type" "value" ["bool", "int", "double", "string", "location"] naming j
    match tag with
    | "bool" => (decodeWith naming content).map .bool
    | "int" => (decodeWith naming content).map .int
    | "double" => (decodeWith naming content).map .double
    | "string" => (decodeWith naming content).map .string
    | "location" => (decodeWith naming content).map .location
    | _ => none

instance : Form Attribute where
  encode a := .obj [("name", encode a.name), ("attribute_type", encode a.type),
    ("required", encode a.required), ("description", encode a.description)]
  decodeWith naming j := do
    let ms ← j.members? ["name", "attribute_type", "required", "description"] []
    some {
      name := ← Members.read naming ms "name"
      type := ← Members.read naming ms "attribute_type"
      required := ← Members.read naming ms "required"
      description := ← Members.readOptional naming ms "description" }

instance : Form Model where
  encode m := .obj [("name", encode m.name), ("attributes", encode m.attributes),
    ("description", encode m.description)]
  decodeWith naming j := do
    let ms ← j.members? ["name", "attributes", "description"] []
    some {
      name := ← Members.read naming ms "name"
      attributes := ← Members.read naming ms "attributes"
      description := ← Members.readOptional naming ms "description" }

instance : Form Description where
  encode d := .obj [("values", encode d.values), ("model", encode d.model)]
  decodeWith naming j := do
    let ms ← j.members? ["values", "model"] []
    some ⟨← Members.read naming ms "values", ← Members.read naming ms "model"⟩

instance : Form Query where
  encode q := .obj [("model", encode q.model), ("constraints", encode q.constraints)]
  decodeWith naming j := do
    let ms ← j.members? ["model", "constraints"] []
    some {
      model := ← Members.readOptional naming ms "model"
      constraints := ← Members.read naming ms "constraints" }

instance : Form Cfp where
  encode
    | .nothing => .obj [("kind", .str "nothing")]
    | .content bytes => tagged "kind" "data" "content" (encode bytes)
    | .query q => tagged "kind" "data" "query" (encode q)
  decodeWith naming j := do
    let (tag, content, naming) ←
      besideTag? "kind" "data" ["nothing", "content", "query"] naming j
    match tag with
    | "nothing" => if content.isNull then some .nothing else none
    | "content" => (decodeWith naming content).map .content
    | "query" => (decodeWith naming content).map .query
    | _ => none

instance : Form Proposal where
  encode
    | .descriptions ds => tagged "kind" "data" "descriptions" (encode ds)
    | .content bytes => tagged "kind" "data" "content" (encode bytes)
  decodeWith naming j := do
    let (tag, content, naming) ← besideTag? "kind" "data" ["descriptions", "content"] naming j
    match tag with
    | "descriptions" => (decodeWith naming content).map .descriptions
    | "content" => (decodeWith naming content).map .content
    | _ => none

end Negotiation
