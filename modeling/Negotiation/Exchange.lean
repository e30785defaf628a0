import Negotiation.Agent.Transport

/-!
A broker for agents in one place. Each connected agent has a mailbox of bounded length; a message
goes to the end of the mailbox of its destination, or comes back to the sender as a dialogue error
when nobody is there. Services are found in ascending order of agent and service.
-/

namespace Negotiation

/-- The events that wait for one agent, first to be taken first. -/
structure Mailbox where
  events : List Event := []
  /-- The agent is connected: events can be posted. -/
  connected : Bool := true
  /-- Somebody still takes events. -/
  reading : Bool := true
  deriving DecidableEq

/-- Why an agent cannot connect. -/
inductive ConnectError where
  | duplicateAgent (key : String)
  | emptyKey
  deriving DecidableEq

/-- The wording of a connect error. -/
def ConnectError.message : ConnectError → String
  | .duplicateAgent key => "agent '" ++ key ++ "' is already connected"
  | .emptyKey => "agent key cannot be empty"

/-- A broker: the mailboxes of its agents, also of those that left, and the services of each. -/
structure Exchange where
  capacity : Nat
  mailboxes : SortedMap String Mailbox := .empty
  services : SortedMap String (SortedMap String Description) := .empty
  deriving DecidableEq

namespace Exchange

/-- A broker without agents; a mailbox holds at least one event. -/
def new (capacity : Nat) : Exchange := { capacity := max capacity 1 }

/-- The length of mailboxes unless another is asked for. -/
def defaultCapacity : Nat := 256

/-- The mailbox of a connected agent. -/
def mailbox? (x : Exchange) (key : String) : Option Mailbox :=
  (x.mailboxes.get? key).filter (·.connected)

/-- Whether an agent is connected. -/
def isConnected (x : Exchange) (key : String) : Bool := (x.mailbox? key).isSome

/-- The connected agents in ascending order. -/
def agents (x : Exchange) : List String := (x.mailboxes.filter fun _ m => m.connected).keys

/-- The events that wait for an agent. -/
def waiting (x : Exchange) (key : String) : List Event :=
  match x.mailboxes.get? key with
  | some m => m.events
  | none => []

/-- Puts a mailbox in place. -/
def setMailbox (x : Exchange) (key : String) (m : Mailbox) : Exchange :=
  { x with mailboxes := x.mailboxes.insert key m }

/-- Connects an agent with an empty mailbox. What an earlier connection left unread is gone. -/
def connect (x : Exchange) (key : String) : Except ConnectError Exchange :=
  if key = "" then .error .emptyKey
  else if x.isConnected key then .error (.duplicateAgent key)
  else .ok (x.setMailbox key {})

/-- Disconnects an agent and takes its services back. Events that wait for it can still be taken. -/
def disconnect (x : Exchange) (key : String) : Exchange :=
  match x.mailbox? key with
  | some m => { x.setMailbox key { m with connected := false } with services := x.services.erase key }
  | none => x

/-- The agent takes no more events; those that wait are lost. -/
def abandon (x : Exchange) (key : String) : Exchange :=
  match x.mailboxes.get? key with
  | some m => x.setMailbox key { m with events := [], reading := false }
  | none => x

/-- Takes the first event that waits for an agent. -/
def take (x : Exchange) (key : String) : Option Event × Exchange :=
  match x.mailboxes.get? key with
  | some m =>
    match m.events with
    | e :: rest => (some e, x.setMailbox key { m with events := rest })
    | [] => (none, x)
  | none => (none, x)

/-- Puts an event at the end of a connected agent's mailbox. An agent that takes no more events is
disconnected on the occasion. -/
def post (x : Exchange) (key : String) (e : Event) : Except TransportError Unit × Exchange :=
  match x.mailbox? key with
  | none => (.error (.unknownDestination key), x)
  | some m =>
    if ¬ m.reading then (.error (.unknownDestination key), x.disconnect key)
    else if x.capacity ≤ m.events.length then
      (.error (.refused ("event queue of " ++ key ++ " is full")), x)
    else (.ok (), x.setMailbox key { m with events := m.events ++ [e] })

/-- Posts an event to the agent that made a request; when it is gone it is disconnected. -/
def respond (x : Exchange) (key : String) (e : Event) : Except TransportError Unit × Exchange :=
  match x.post key e with
  | (.error (.unknownDestination _), x) => (.error .disconnected, x)
  | r => r

/-- Delivers a message of an agent, or sends back that its destination is not there. -/
def deliver (x : Exchange) (sender : String) (m : Outgoing) :
    Except TransportError Unit × Exchange :=
  if ¬ x.isConnected sender then (.error .disconnected, x)
  else
    match m.destination? with
    | none =>
      (.error (.refused ("dialogue " ++ toString m.dialogue.toNat ++ " has no destination")), x)
    | some destination =>
      match x.post destination.key (.agent (m.delivered (.ofKey sender))) with
      | (.error (.unknownDestination _), x) =>
        x.respond sender (.dialogueError m.answer m.dialogue destination)
      | r => r

/-- The services of an agent by name. -/
def servicesOf (x : Exchange) (key : String) : SortedMap String Description :=
  (x.services.get? key).getD .empty

/-- The description of a service. -/
def service? (x : Exchange) (key service : String) : Option Description :=
  (x.servicesOf key).get? service

/-- The number of services. -/
def serviceCount (x : Exchange) : Nat :=
  x.services.values.foldr (fun offers n => offers.size + n) 0

/-- Registers a service of an agent, over an earlier one of the name. -/
def register (x : Exchange) (key service : String) (d : Description) : Exchange :=
  { x with services := x.services.insert key ((x.servicesOf key).insert service d) }

/-- Takes a service of an agent back; the agent is told when there is none. -/
def unregister (x : Exchange) (key : String) (id : RequestId) (service : String) :
    Except TransportError Unit × Exchange :=
  match x.service? key service with
  | some _ =>
    (.ok (), { x with services := x.services.insert key ((x.servicesOf key).erase service) })
  | none =>
    x.respond key
      (.requestError id .unregisterService (some "service not registered") (some service))

/-- All services with their agents, by agent and then by name. -/
def allServices (x : Exchange) : List (String × String × Description) :=
  x.services.toList.flatMap fun (key, offers) => offers.toList.map fun (name, d) => (key, name, d)

/-- The services that answer a query: address and location of each. -/
def matching (x : Exchange) (query : Query) : List (Address × Option Location) :=
  (x.allServices.filter fun (_, _, d) => query.accepts d).map fun (key, name, d) =>
    ((Address.ofKey key).withLabel name, d.location?)

/-- Where an agent is: the first location among its services. -/
def locationOf (x : Exchange) (key : String) : Option Location :=
  (x.servicesOf key).values.findSome? Description.location?

/-- A service as a wide search from `origin` reports it. -/
def itemOf (origin : Option Location) (a : Address) (location : Option Location) : SearchItem :=
  { agentKey := a.text
    coreKey := "local-core"
    coreAddress := "127.0.0.1"
    port := 0
    distance := match origin, location with
      | some o, some l => some (o.distance l)
      | _, _ => none }

/-- Takes a request of an agent. -/
def submit (x : Exchange) (key : String) : Request → Except TransportError Unit × Exchange
  | .send m => x.deliver key m
  | .register _ route d => (.ok (), x.register key route.service d)
  | .unregister id route _ => x.unregister key id route.service
  | .search id query => x.respond key (.searchResult id ((x.matching query).map (·.1)))
  | .searchWide id query =>
    let origin := x.locationOf key
    x.respond key (.searchResultWide id ((x.matching query).map fun (a, l) => itemOf origin a l))

/-- The connection of an agent to the broker. -/
def connection (key : String) : Transport Exchange := ⟨fun x request => x.submit key request⟩

end Exchange

end Negotiation
