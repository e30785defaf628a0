import Negotiation.CommandLine
import Negotiation.Market

/-!
What the commands do, given what was found in files and the bytes that keys are made of.
-/

namespace Negotiation

/-- Why a command has no result. -/
inductive CommandError where
  | plan (e : PlanError)
  | market (e : MarketError)
  deriving DecidableEq

/-- The wording of a command error. -/
def CommandError.message : CommandError → String
  | .plan e => "configuration error: " ++ e.message
  | .market e => "demo failed: " ++ e.message

namespace Program

/-- The plan of a file. -/
def planOf (path : String) (found : Toml.Found) : Except CommandError Plan :=
  (Plan.ofFile path found).mapError .plan

/-- A plan with as many stations as there are keys. -/
def planFor (client : List UInt8) (stations : List (List UInt8)) : Plan :=
  .generated (Base58.encode client) (stations.map Base58.encode)

/-- Runs the market of a plan, perhaps with another waiting time. -/
def trade (p : Plan) (timeout : Option UInt64) (start : String → UInt32) :
    Except CommandError Weather.Purchase := do
  let p := { p with timeout := timeout.getD p.timeout }
  p.validate.mapError .plan
  (Market.run p start).mapError .market

/-- Checks the plan of a file. -/
def check (path : String) (found : Toml.Found) : Except CommandError Report := do
  let p ← planOf path found
  .ok (.summary p.summary)

/-- Makes a key. -/
def newKey (bytes : List UInt8) : Report := .newKey (Base58.encode bytes)

end Program

end Negotiation
