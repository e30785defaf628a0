import Negotiation.Decimal.Places
import Negotiation.Forms.Market
import Negotiation.Json.Printer

/-!
What the commands write: a purchase, the summary of a plan, or a new key; each as lines for people or
as indented JSON. Columns count characters.
-/

namespace Negotiation

/-- How results are written. -/
inductive Style where
  | table
  | json
  deriving DecidableEq, Inhabited

/-- What is told about a plan that can be run. -/
structure Summary where
  client : String
  /-- The stations' keys and prices. -/
  stations : List (String × Int64)
  timeout : UInt64
  maxDialogues : UInt64
  inactivityTimeout : UInt64
  deriving DecidableEq

/-- The summary of a plan. -/
def Plan.summary (p : Plan) : Summary :=
  { client := p.client
    stations := p.stations.map fun s => (s.key, s.price)
    timeout := p.timeout
    maxDialogues := p.limits.maxDialogues
    inactivityTimeout := p.limits.inactivityTimeout }

instance : Json.Form Summary where
  encode s := .obj [("client", .str s.client), ("stations", Json.encode s.stations),
    ("timeout_secs", Json.encode s.timeout), ("max_dialogues", Json.encode s.maxDialogues),
    ("inactivity_timeout_secs", Json.encode s.inactivityTimeout)]
  decodeWith naming j := do
    let ms ← j.members?
      ["client", "stations", "timeout_secs", "max_dialogues", "inactivity_timeout_secs"] []
    some {
      client := ← Json.Members.read naming ms "client"
      stations := ← Json.Members.read naming ms "stations"
      timeout := ← Json.Members.read naming ms "timeout_secs"
      maxDialogues := ← Json.Members.read naming ms "max_dialogues"
      inactivityTimeout := ← Json.Members.read naming ms "inactivity_timeout_secs" }

/-- A result of a command. -/
inductive Report where
  | purchase (p : Weather.Purchase)
  | summary (s : Summary)
  | newKey (key : String)
  deriving DecidableEq

namespace Report

open Json

/-- Blanks that widen a text of some length to a column. -/
def blanks (width length : Nat) : String := String.ofList (List.replicate (width - length) ' ')

/-- A text at the left of a column. -/
def left (width : Nat) (s : String) : String := s ++ blanks width s.length

/-- A text at the right of a column. -/
def right (width : Nat) (s : String) : String := blanks width s.length ++ s

/-- A label and its value. -/
def entry (label value : String) : String := left 18 label ++ value

/-- The line under a title. -/
def rule : String := String.ofList (List.replicate 34 '═')

/-- A row of the table of stations. -/
def row (key price : String) : String := left 48 key ++ " " ++ right 8 price

/-- The lines for people. -/
def lines : Report → List String
  | .purchase p =>
    ["Negotiation Outcome", rule, entry "Station:" p.station,
      entry "Price:" (toString p.price.toInt), entry "Offers:" (toString p.proposals), "",
      "Measurement", entry "  Temperature:" (Decimal.fixed 1 p.measurement.temperature ++ " °C"),
      entry "  Humidity:" (Decimal.fixed 2 p.measurement.humidity),
      entry "  Air pressure:" (Decimal.fixed 1 p.measurement.airPressure ++ " hPa")]
  | .summary s =>
    ["Configuration OK", entry "Client:" s.client,
      entry "Timeout:" (toString s.timeout.toNat ++ "s"),
      entry "Max dialogues:" (toString s.maxDialogues.toNat),
      entry "Inactivity:" (toString s.inactivityTimeout.toNat ++ "s"), "", row "STATION" "PRICE"]
      ++ s.stations.map fun (key, price) => row key (toString price.toInt)
  | .newKey key => [key]

/-- The JSON value of a report. -/
def json : Report → Json
  | .purchase p => encode p
  | .summary s => encode s
  | .newKey key => keyForm key

/-- The text of a report. -/
def text (r : Report) : Style → String
  | .table => String.join (r.lines.map (· ++ "\n"))
  | .json => pretty 0 r.json ++ "\n"

end Report

end Negotiation
