import Negotiation.Agent.Handler
import Negotiation.Agent.Transport
import Negotiation.Dialogue.Table

/-!
The engine of an agent. It owns the table of dialogues, numbers requests, hands messages to a
transport and tells an application what happened. Everything is a function of the engine, the
transport's state, the application's memory and the time.

The actions that an application asks for are performed first in, first out; what it asks for when
one of them fails goes to the end of the line. An application may go on for ever in this way, so
performing takes a bound on the number of actions, and has no result when the bound is too small.
-/

namespace Negotiation

/-- The engine of one agent. -/
structure Engine where
  home : Address
  table : Table
  nextRequest : RequestId := 1
  deriving DecidableEq

namespace Engine

/-- The engine of an agent whose dialogue numbers start at `start`. -/
def new (home : Address) (limits : Limits) (start : UInt32) : Except Failure Engine := do
  limits.validate
  .ok { home, table := .new limits start }

/-- The limits that the engine keeps. -/
def limits (e : Engine) : Limits := e.table.limits

/-- The message of a step. -/
def outgoing (dialogue : DialogueId) (stamp : Stamp) (body : Body) : Outgoing :=
  { answer := stamp.answer, dialogue, target := stamp.target, route := stamp.route, body }

/-- Commits a received message. -/
def receive (e : Engine) (m : Message) (now : Millis) : Except Failure (Dialogue × Engine) := do
  let (d, table) ← e.table.receive m (m.route e.home) now
  .ok (d, { e with table })

/-- Applies an event to a dialogue. -/
def apply (e : Engine) (id : DialogueId) (event : Transition) (now : Millis) :
    Except Failure (State × Engine) := do
  let (state, table) ← e.table.apply id event now
  .ok (state, { e with table })

/-- Aborts a dialogue of which a message could not be delivered; there is no dialogue to show when
that is not possible. -/
def abort (e : Engine) (id : DialogueId) (now : Millis) : Option Dialogue × Engine :=
  match e.apply id .dialogueError now with
  | .ok (_, e) => (e.table.get? id, e)
  | .error _ => (none, e)

/-- Sweeps the table. -/
def sweep (e : Engine) (now : Millis) : Sweep × Engine :=
  let (report, table) := e.table.sweep now
  (report, { e with table })

/-- The first message of a new dialogue, and the engine that holds the dialogue. -/
def opening (e : Engine) (now : Millis) (peer : Address) (body : Body) :
    Except Failure Outgoing × Engine :=
  match e.table.openOutbound peer now with
  | (.error f, table) => (.error f, { e with table })
  | (.ok id, table) =>
    match table.send id body.step e.home now with
    | .error f => (.error f, { e with table := table.remove id })
    | .ok (stamp, table) => (.ok (outgoing id stamp body), { e with table })

/-- The next message of a dialogue, and the engine that has committed it. -/
def answering (e : Engine) (now : Millis) (id : DialogueId) (body : Body) :
    Except Failure (Outgoing × Engine) := do
  let (stamp, table) ← e.table.send id body.step e.home now
  .ok (outgoing id stamp body, { e with table })

/-- What an event is to the application: the news, the engine behind it, and the failure of a
message that is refused. -/
def observe (e : Engine) (now : Millis) : Event → Notice × Engine × Except Failure Unit
  | .agent m =>
    match e.receive m now with
    | .ok (d, e) => (.ofBody d m.body, e, .ok ())
    | .error f => (.rejected m f, e, .error f)
  | .searchResult id agents => (.searchResult id agents, e, .ok ())
  | .searchResultWide id items => (.searchResultWide id items, e, .ok ())
  | .requestError id operation cause detail => (.requestError id operation cause detail, e, .ok ())
  | .dialogueError _ id origin =>
    let (d, e) := e.abort id now
    (.dialogueError id origin d, e, .ok ())

end Engine

/-- An engine and the state of its transport. -/
structure Linked (β : Type) where
  engine : Engine
  link : β

namespace Linked

variable {β σ : Type}

/-- The same with another table. -/
def withTable (s : Linked β) (table : Table) : Linked β := { s with engine := { s.engine with table } }

/-- Hands a message to the transport. -/
def transmit (T : Transport β) (s : Linked β) (m : Outgoing) : Except Failure Unit × Linked β :=
  let (result, link) := T.submit s.link (.send m)
  (result.mapError .transport, { s with link })

/-- Opens a dialogue with its first message. When the message is refused there is no dialogue. -/
def openDialogue (T : Transport β) (now : Millis) (s : Linked β) (peer : Address) (body : Body) :
    Except Failure DialogueId × Linked β :=
  match s.engine.opening now peer body with
  | (.error f, engine) => (.error f, { s with engine })
  | (.ok m, engine) =>
    match transmit T { s with engine } m with
    | (.ok (), s) => (.ok m.dialogue, s)
    | (.error f, s) => (.error f, s.withTable (s.engine.table.remove m.dialogue))

/-- Sends a step in a dialogue. The step is committed before the message is handed over. -/
def reply (T : Transport β) (now : Millis) (s : Linked β) (id : DialogueId) (body : Body) :
    Except Failure Unit × Linked β :=
  match s.engine.answering now id body with
  | .error f => (.error f, s)
  | .ok (m, engine) => transmit T { s with engine } m

/-- Applies an event to a dialogue. -/
def apply (now : Millis) (s : Linked β) (id : DialogueId) (event : Transition) :
    Except Failure State × Linked β :=
  match s.engine.apply id event now with
  | .error e => (.error e, s)
  | .ok (state, engine) => (.ok state, { s with engine })

/-- Makes a numbered request. A number is used up even if the request is refused. -/
def request (T : Transport β) (s : Linked β) (make : RequestId → Request) :
    Except Failure RequestId × Linked β :=
  let id := s.engine.nextRequest
  let (result, link) := T.submit s.link (make id)
  (match result with
    | .ok () => .ok id
    | .error e => .error (.transport e),
   { engine := { s.engine with nextRequest := id + 1 }, link })

/-- Registers a service of the agent. -/
def register (T : Transport β) (s : Linked β) (service : String) (d : Description) :
    Except Failure RequestId × Linked β :=
  s.request T fun id => .register id (Route.ofService s.engine.home service) d

/-- Takes back a service of the agent. -/
def unregister (T : Transport β) (s : Linked β) (service : String) (d : Description) :
    Except Failure RequestId × Linked β :=
  s.request T fun id => .unregister id (Route.ofService s.engine.home service) d

/-- Searches services. -/
def search (T : Transport β) (s : Linked β) (query : Query) : Except Failure RequestId × Linked β :=
  s.request T fun id => .search id query

/-- Searches services with their distances. -/
def searchWide (T : Transport β) (s : Linked β) (query : Query) :
    Except Failure RequestId × Linked β :=
  s.request T fun id => .searchWide id query

/-- A result without its value. -/
def done {α : Type} (r : Except Failure α × Linked β) : Except Failure Unit × Linked β :=
  (r.1.map fun _ => (), r.2)

/-- Performs one action. -/
def execute (T : Transport β) (now : Millis) (s : Linked β) : Action → Except Failure Unit × Linked β
  | .cfp peer payload => done (s.openDialogue T now peer (.cfp payload))
  | .propose id proposal => s.reply T now id (.propose proposal)
  | .accept id => s.reply T now id .accept
  | .decline id => s.reply T now id .decline
  | .message id content => s.reply T now id (.message content)
  | .complete id => done (s.apply now id .complete)
  | .cancel id => done (s.apply now id .cancel)

/-- Performs actions in order up to the first fatal failure; others are passed over. -/
def perform (T : Transport β) (now : Millis) (s : Linked β) : List Action →
    Except Failure Unit × Linked β
  | [] => (.ok (), s)
  | a :: rest =>
    match s.execute T now a with
    | (.ok (), s) => s.perform T now rest
    | (.error e, s) => if e.isFatal then (.error e, s) else s.perform T now rest

/-- What a run of an engine with an application ends in: the result, engine and transport, and the
application's memory. -/
abbrev Outcome (β σ : Type) := Except Failure Unit × Linked β × σ

/-- Performs actions for an application, which is told of each that fails and may ask for more. -/
def performFor (T : Transport β) (h : Handler σ) (now : Millis) :
    Nat → Linked β → σ → List Action → Option (Outcome β σ)
  | _, s, m, [] => some (.ok (), s, m)
  | 0, _, _, _ :: _ => none
  | bound + 1, s, m, a :: rest =>
    match s.execute T now a with
    | (.ok (), s) => performFor T h now bound s m rest
    | (.error e, s) =>
      if e.isFatal then some (.error e, s, m)
      else
        let (more, m) := h.react m (.actionFailed a e)
        performFor T h now bound s m (rest ++ more)

/-- Tells the application something and performs what it asks for. -/
def notify (T : Transport β) (h : Handler σ) (now : Millis) (bound : Nat) (s : Linked β) (m : σ)
    (n : Notice) : Option (Outcome β σ) :=
  let (actions, m) := h.react m n
  s.performFor T h now bound m actions

/-- Takes one event. A message that is refused is reported to the application, and its failure is
the result unless one of the actions then asked for fails fatally. -/
def handle (T : Transport β) (h : Handler σ) (now : Millis) (bound : Nat) (s : Linked β) (m : σ)
    (event : Event) : Option (Outcome β σ) :=
  let (news, engine, verdict) := s.engine.observe now event
  (notify T h now bound { s with engine } m news).map fun (result, rest) =>
    (result.bind fun _ => verdict, rest)

/-- Reports dialogues that timed out, up to the first fatal failure. -/
def reportTimeouts (T : Transport β) (h : Handler σ) (now : Millis) (bound : Nat) :
    Linked β → σ → List Dialogue → Option (Outcome β σ)
  | s, m, [] => some (.ok (), s, m)
  | s, m, d :: rest => do
    match ← notify T h now bound s m (.timeout d) with
    | (.ok (), s, m) => reportTimeouts T h now bound s m rest
    | (.error e, s, m) => some (.error e, s, m)

/-- Sweeps the table and reports what timed out. -/
def sweepAndReport (T : Transport β) (h : Handler σ) (now : Millis) (bound : Nat) (s : Linked β)
    (m : σ) : Option (Outcome β σ) :=
  let (report, engine) := s.engine.sweep now
  reportTimeouts T h now bound { s with engine } m report.timedOut

/-- What a running engine waits for. -/
inductive Signal where
  | tick
  | event (e : Event)
  | shutdown

/-- Runs the engine on signals, each with its time, until the shutdown or the end of the list. Only
a fatal failure ends the run early. -/
def run (T : Transport β) (h : Handler σ) (bound : Nat) :
    Linked β → σ → List (Millis × Signal) → Option (Outcome β σ)
  | s, m, [] => some (.ok (), s, m)
  | s, m, (_, .shutdown) :: _ => some (.ok (), s, m)
  | s, m, (now, .tick) :: rest => do
    match ← sweepAndReport T h now bound s m with
    | (.ok (), s, m) => run T h bound s m rest
    | (.error e, s, m) => some (.error e, s, m)
  | s, m, (now, .event e) :: rest => do
    match ← handle T h now bound s m e with
    | (.ok (), s, m) => run T h bound s m rest
    | (.error e, s, m) => if e.isFatal then some (.error e, s, m) else run T h bound s m rest

end Linked

end Negotiation
