import Negotiation.Market.Plan
import Negotiation.Weather.Client

/-!
JSON forms of plans and purchases. A station's key stands among its other members, so a station is
read from an object only. In TOML a record may also be given as an array that is too long; what is
too much is passed over.
-/

namespace Negotiation

open Json

/-- The JSON form of a key on its own. -/
def keyForm (key : String) : Json := .obj [("public_key", encode key)]

/-- Reads a key on its own. -/
def readKey (naming : Naming) (j : Json) : Option String := do
  Members.read naming (← j.members? ["public_key"] []) "public_key"

instance : Form StationPlan where
  encode s := .obj [("public_key", encode s.key), ("price", encode s.price),
    ("latitude", encode s.latitude), ("longitude", encode s.longitude)]
  decodeWith
    | naming, .obj ms => do
      some {
        key := ← Members.read naming ms "public_key"
        price := ← Members.read naming ms "price"
        latitude := ← Members.readOptional naming ms "latitude"
        longitude := ← Members.readOptional naming ms "longitude" }
    | _, _ => none

instance : Form Plan where
  encode p := .obj [("client", keyForm p.client), ("stations", encode p.stations),
    ("timeout_secs", encode p.timeout), ("engine", encode p.limits)]
  decodeWith naming j := do
    let ms ← j.members? ["client"] ["stations", "timeout_secs", "engine"]
    some {
      client := ← readKey naming (← Members.get? ms "client")
      stations := ← Members.readOr naming ms "stations" []
      timeout := ← Members.readOr naming ms "timeout_secs" 10
      limits := ← Members.readOr naming ms "engine" {} }

instance : Form Weather.Purchase where
  encode p := .obj [("station", encode p.station), ("price", encode p.price),
    ("proposals", .int p.proposals), ("measurement", encode p.measurement)]
  decodeWith naming j := do
    let ms ← j.members? ["station", "price", "proposals", "measurement"] []
    let proposals : UInt64 ← Members.read naming ms "proposals"
    some {
      station := ← Members.read naming ms "station"
      price := ← Members.read naming ms "price"
      proposals := proposals.toNat
      measurement := ← Members.read naming ms "measurement" }

namespace Plan

/-- A record given as an array, without what exceeds its fields. -/
def cutTo (fields : Nat) : Json → Json
  | .arr items => .arr (items.take fields)
  | j => j

/-- A plan's document without superfluous items of records. -/
def cutRecords : Json → Json
  | .obj ms => .obj (ms.map fun (name, j) =>
    (name, if name = "client" then cutTo 1 j else if name = "engine" then cutTo 4 j else j))
  | j => j

/-- Reads a plan from a TOML text and refuses one that cannot be run. -/
def ofText (text : String) : Except PlanError Plan := do
  match ((Toml.parse? text).map cutRecords).bind decode with
  | none => .error (.settings .malformed)
  | some p =>
    validate p
    .ok p

/-- Reads a plan from a TOML file. -/
def ofFile (path : String) (found : Toml.Found) : Except PlanError Plan := do
  ofText (← (Toml.textOf path found).mapError .settings)

end Plan

end Negotiation
