import Negotiation.Application
import Negotiation.Market.Plan
import Negotiation.Network

/-!
Markets: stations and one client on a broker of their own. A market is set up with every station
registered and the client's search posted; then agents take the events that wait for them, one at a
time and in any order. `settle` takes the stations first, in ascending order of their keys, until
nothing waits any more. An agent whose engine fails is stopped.
-/

namespace Negotiation

/-- The agents of a market on their broker. -/
abbrev Market := Network Application

/-- Why a market has no result. -/
inductive MarketError where
  | notConnected (key : String) (e : ConnectError)
  | engine (e : Failure)
  | misfit (e : SchemaError)
  | notRegistered (key : String) (e : Failure)
  | searchFailed (e : Failure)
  | clientStopped
  | noMeasurement (seconds : UInt64)
  deriving DecidableEq

/-- The wording of a market error. -/
def MarketError.message : MarketError → String
  | .notConnected key e => "agent '" ++ key ++ "' failed to connect: " ++ e.message
  | .engine e => e.message
  | .misfit e => "station description does not fit the weather model: " ++ e.message
  | .notRegistered key e => "station '" ++ key ++ "' failed to register: " ++ e.message
  | .searchFailed e => "client search failed: " ++ e.message
  | .clientStopped => "client stopped before receiving a measurement: channel closed"
  | .noMeasurement seconds =>
    "no measurement within " ++ toString seconds.toNat ++ "s: deadline has elapsed"

namespace Market

/-! ### Setting up -/

/-- Connects an agent and gives it an engine. -/
def connect (m : Market) (key : String) (limits : Limits) (start : UInt32) :
    Except MarketError (Linked Exchange) := do
  let exchange ← (m.exchange.connect key).mapError (.notConnected key)
  let engine ← (Engine.new (.ofKey key) limits start).mapError .engine
  .ok ⟨engine, exchange⟩

/-- Connects a station and registers its service. -/
def addStation (limits : Limits) (start : String → UInt32) (m : Market) (p : StationPlan) :
    Except MarketError Market := do
  let s ← m.connect p.key limits (start p.key)
  let station : Weather.Station := { price := p.price, location := p.location }
  let description ← station.description.mapError .misfit
  match s.register (Exchange.connection p.key) Weather.serviceName description with
  | (.ok _, s) => .ok (m.put p.key s (.station station))
  | (.error e, _) => .error (.notRegistered p.key e)

/-- Connects the client and posts its search. -/
def addClient (limits : Limits) (start : String → UInt32) (m : Market) (key : String) :
    Except MarketError Market := do
  let s ← m.connect key limits (start key)
  match s.search (Exchange.connection key) Weather.Client.query with
  | (.ok search, s) => .ok (m.put key s (.client (Weather.Client.expect {} search)))
  | (.error e, _) => .error (.searchFailed e)

/-- The market of a plan. Each agent's dialogues are numbered from its start. -/
def setUp (p : Plan) (start : String → UInt32) : Except MarketError Market := do
  let m ← p.stations.foldlM (addStation p.limits start) {}
  m.addClient p.limits start p.client

/-! ### Trading -/

/-- An agent takes the first event that waits for it; a fatal failure stops it. -/
def step (now : Millis) (m : Market) (key : String) : Market :=
  match m.take Application.handler now Application.effort key with
  | some (_, .error e, m) => if e.isFatal then m.halt key else m
  | some (_, .ok (), m) => m
  | none => m

/-- The agent that goes on: the first station that has something to do, and else the client. -/
def next? (m : Market) (client : String) : Option String :=
  let busy := m.busy
  (busy.find? (· ≠ client)).or busy.head?

/-- Takes events until none waits, but no more of them than the bound. -/
def settleWithin (client : String) : Nat → Market → Market
  | 0, m => m
  | bound + 1, m =>
    match m.next? client with
    | some key => settleWithin client bound (m.step 0 key)
    | none => m

/-- Takes events until none waits. There is the search result, and for each station at most a call,
an offer or its return, an answer to the offer, and a measurement or its return. -/
def settle (m : Market) (client : String) : Market :=
  settleWithin client (5 * m.members.size) m

/-- What the client bought. -/
def purchase? (m : Market) (client : String) : Option Weather.Purchase :=
  (m.members.get? client).bind fun member => member.memory.purchase?

/-- Runs the market of a plan and gives what the client bought. -/
def run (p : Plan) (start : String → UInt32) : Except MarketError Weather.Purchase := do
  let m := (← setUp p start).settle p.client
  match m.purchase? p.client with
  | some purchase => .ok purchase
  | none => .error (if m.isHalted p.client then .clientStopped else .noMeasurement p.timeout)

end Market

end Negotiation
