import Negotiation.Agent.Engine
import Negotiation.Exchange

/-!
Agents on one broker. Each has an engine and an application of its own, and takes the events that wait
in its mailbox one at a time; in which order the agents do so is up to whoever runs the network.
-/

namespace Negotiation

/-- An agent of a network. -/
structure Member (σ : Type) where
  engine : Engine
  /-- The memory of the agent's application. -/
  memory : σ
  /-- The agent still takes events. -/
  running : Bool := true

/-- Why an agent did not join. -/
inductive JoinError where
  | connection (e : ConnectError)
  | engine (e : Failure)
  deriving DecidableEq

/-- A broker and the agents on it by their keys. -/
structure Network (σ : Type) where
  exchange : Exchange := .new Exchange.defaultCapacity
  members : SortedMap String (Member σ) := .empty

namespace Network

variable {σ : Type}

/-- The engine of an agent, connected to the broker. -/
def linked (n : Network σ) (m : Member σ) : Linked Exchange := ⟨m.engine, n.exchange⟩

/-- The network behind something that an agent did, or with an agent more. -/
def put (n : Network σ) (key : String) (s : Linked Exchange) (memory : σ) : Network σ :=
  { exchange := s.link, members := n.members.insert key { engine := s.engine, memory } }

/-- An agent joins with an application. Under limits that no engine takes it stays connected, but
nobody takes its events. -/
def join (n : Network σ) (key : String) (limits : Limits) (start : UInt32) (memory : σ) :
    Except JoinError Unit × Network σ :=
  match n.exchange.connect key with
  | .error e => (.error (.connection e), n)
  | .ok exchange =>
    match Engine.new (.ofKey key) limits start with
    | .error e => (.error (.engine e), { n with exchange := exchange.abandon key })
    | .ok engine => (.ok (), n.put key ⟨engine, exchange⟩ memory)

/-- An agent takes the first event that waits for it. There is none if nothing waits, if the agent
takes no events, or if the bound on the actions that follow is too small. -/
def take (h : Handler σ) (now : Millis) (bound : σ → Event → Nat) (n : Network σ) (key : String) :
    Option (Event × Except Failure Unit × Network σ) :=
  match n.members.get? key, n.exchange.take key with
  | some ⟨engine, memory, true⟩, (some e, exchange) =>
    (Linked.handle (Exchange.connection key) h now (bound memory e) ⟨engine, exchange⟩ memory e).map
      fun (result, s, memory) => (e, result, n.put key s memory)
  | _, _ => none

/-- Stops an agent: it leaves its mailbox and takes no more events. -/
def halt (n : Network σ) (key : String) : Network σ :=
  match n.members.get? key with
  | some m =>
    { exchange := n.exchange.abandon key
      members := n.members.insert key { m with running := false } }
  | none => n

/-- The keys for which events wait. -/
def busy (n : Network σ) : List String :=
  (n.exchange.mailboxes.filter fun _ box => !box.events.isEmpty).keys

/-- Whether an agent was stopped. -/
def isHalted (n : Network σ) (key : String) : Bool := (n.members.get? key).any fun m => !m.running

end Network

end Negotiation
