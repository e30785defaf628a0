import Negotiation.Text.Base58
import Negotiation.Toml.Settings

/-!
Plans of a market: one client, the stations that it can buy from, how long it waits, and the limits
of every agent. Main notion: `Plan.validate` tells the first thing that keeps a plan from being run,
in the order client, stations one by one, waiting time, limits.
-/

namespace Negotiation

/-- A station as planned. -/
structure StationPlan where
  key : String
  price : Int64
  /-- Degrees. -/
  latitude : Option Float := none
  longitude : Option Float := none
  deriving DecidableEq

/-- The plan of a market. -/
structure Plan where
  /-- The key of the client. -/
  client : String
  stations : List StationPlan := []
  /-- Seconds for which the client waits. -/
  timeout : UInt64 := 10
  limits : Limits := {}
  deriving DecidableEq

/-- Why a plan cannot be run. -/
inductive PlanError where
  | settings (e : Toml.ReadError)
  | emptyKey
  | malformedKey (key : String) (fault : Base58.Fault)
  | noStation
  | duplicateKey (key : String)
  | negativePrice (key : String)
  | halfLocation (key : String)
  | noTime
  | limits (e : Failure)
  deriving DecidableEq

/-- The wording of a plan error. -/
def PlanError.message : PlanError → String
  | .settings e => e.message
  | .emptyKey => "public_key cannot be empty"
  | .malformedKey key fault =>
    "public_key '" ++ key ++ "' is not valid base58: " ++ fault.message
  | .noStation => "at least one station is required"
  | .duplicateKey key => "duplicate public_key '" ++ key ++ "'"
  | .negativePrice key => "station '" ++ key ++ "' has a negative price"
  | .halfLocation key => "station '" ++ key ++ "' needs both latitude and longitude"
  | .noTime => "timeout_secs must be greater than 0"
  | .limits e => "engine: " ++ e.message

namespace StationPlan

/-- Where the station is. -/
def location (s : StationPlan) : Option Location :=
  match s.latitude, s.longitude with
  | some latitude, some longitude => some ⟨latitude, longitude⟩
  | _, _ => none

end StationPlan

namespace Plan

/-- Refuses keys that are empty or not in base 58. -/
def checkKey (key : String) : Except PlanError Unit :=
  if key = "" then .error .emptyKey
  else
    match Base58.decode key with
    | .ok _ => .ok ()
    | .error fault => .error (.malformedKey key fault)

/-- Refuses a station whose key is among those taken, or that is not fully described. -/
def checkStation (taken : List String) (s : StationPlan) : Except PlanError Unit := do
  checkKey s.key
  if s.key ∈ taken then .error (.duplicateKey s.key)
  else if s.price < 0 then .error (.negativePrice s.key)
  else if s.latitude.isSome ≠ s.longitude.isSome then .error (.halfLocation s.key)
  else .ok ()

/-- Checks stations one after the other. -/
def checkStations : List String → List StationPlan → Except PlanError Unit
  | _, [] => .ok ()
  | taken, s :: rest => do
    checkStation taken s
    checkStations (s.key :: taken) rest

/-- Refuses a plan that cannot be run. -/
def validate (p : Plan) : Except PlanError Unit := do
  checkKey p.client
  if p.stations.isEmpty then .error .noStation
  checkStations [p.client] p.stations
  if p.timeout = 0 then .error .noTime
  p.limits.validate.mapError .limits

/-- Stations with these keys, ever more expensive and farther north. -/
def rising (keys : List String) : List StationPlan :=
  keys.mapIdx fun i key =>
    { key
      price := 50 + 10 * Int64.ofNat i
      latitude := some (51.5 + Float.ofNat i)
      longitude := some (-0.1) }

/-- The plan of a market with these keys. -/
def generated (client : String) (stations : List String) : Plan :=
  { client, stations := rising stations }

end Plan

end Negotiation
