import Negotiation.Agent.Handler
import Negotiation.Weather.Measurement

/-!
Agents that sell weather measurements. A station answers every call with its price, and every
acceptance with the measurement.
-/

namespace Negotiation.Weather

/-- The name under which stations offer their service. -/
def serviceName : String := "weather"

/-- The attributes of the weather service. -/
def attributes : List Attribute :=
  [{ name := "wind_speed", type := .bool, required := true
     description := some "Provides wind speed measurements." },
   { name := "temperature", type := .bool, required := true
     description := some "Provides temperature measurements." },
   { name := "air_pressure", type := .bool, required := true
     description := some "Provides air pressure measurements." },
   { name := "humidity", type := .bool, required := true
     description := some "Provides humidity measurements." },
   { name := "location", type := .location, required := false
     description := some "Where the station is." }]

/-- The model of the weather service. -/
def model : Model :=
  match Model.build "weather_data" attributes with
  | .ok m => m.describe "All possible weather data."
  | .error _ => Model.generate "weather_data" .empty

/-- A weather station. -/
structure Station where
  price : Int64
  location : Option Location := none
  measurement : Measurement := {}
  /-- The number of measurements sent. -/
  served : Nat := 0
  deriving DecidableEq

namespace Station

/-- What the station provides. -/
def values (s : Station) : SortedMap String Value :=
  .ofList ([("wind_speed", .bool false), ("temperature", .bool true), ("air_pressure", .bool true),
    ("humidity", .bool true)] ++ (s.location.map fun l => ("location", Value.location l)).toList)

/-- The description under which the station offers its service. -/
def description (s : Station) : Except SchemaError Description := Description.checked s.values model

/-- The offer of the station. -/
def proposal (s : Station) : Proposal :=
  .single (.generated (.ofList [("price", .int s.price)]) "")

/-- What the station does. -/
def react (s : Station) : Notice → List Action × Station
  | .cfp d _ => ([.propose d.id s.proposal], s)
  | .accept d =>
    ([.message d.id s.measurement.toBytes, .complete d.id], { s with served := s.served + 1 })
  | _ => ([], s)

/-- The application of a station. -/
def handler : Handler Station := ⟨react⟩

end Station

end Negotiation.Weather
