import Negotiation.Dialogue.Limits

/-!
One dialogue, as one of its two agents sees it. A received message must come from the counterparty,
answer the last step, have a higher number than it, and be legal in the state, checked in this order;
a step that is refused changes nothing.
-/

namespace Negotiation

/-- Which of the two agents began. -/
inductive Role where
  | initiator
  | responder
  deriving DecidableEq, Inhabited

/-- One negotiation. -/
structure Dialogue where
  id : DialogueId
  counterparty : Address
  role : Role
  state : State := .idle
  /-- The number of the last step, sent or received. -/
  lastAnswer : AnswerId := 0
  /-- The number that the last step answered. -/
  lastTarget : AnswerId := 0
  createdAt : Millis
  /-- The time of the last step or transition. -/
  updatedAt : Millis
  closedAt : Option Millis := none
  /-- The route of the last message received. -/
  replyRoute : Option Route := none
  deriving DecidableEq

/-- Number, target and route of a step that is sent. -/
structure Stamp where
  answer : AnswerId
  target : AnswerId
  route : Route
  deriving DecidableEq

namespace Dialogue

/-- A dialogue before its first step. -/
def new (id : DialogueId) (counterparty : Address) (role : Role) (now : Millis) : Dialogue :=
  { id, counterparty, role, createdAt := now, updatedAt := now }

/-- Whether the dialogue is over. -/
def isClosed (d : Dialogue) : Bool := d.state.isClosed

/-- Notes the time, and that the dialogue is over if it is. -/
def touch (d : Dialogue) (now : Millis) : Dialogue :=
  { d with
    updatedAt := now
    closedAt := if d.isClosed ∧ d.closedAt = none then some now else d.closedAt }

/-- Where a transition leads. -/
def after (d : Dialogue) (t : Transition) : Except Failure State :=
  match d.state.next? t with
  | some s => .ok s
  | none => .error (.illegalTransition d.id d.state t)

/-- The dialogue behind a received message. -/
def receive (d : Dialogue) (m : Message) (route : Route) (now : Millis) : Except Failure Dialogue :=
  if ¬ m.origin.sameAgent d.counterparty then
    .error (.counterpartyMismatch d.id d.counterparty m.origin)
  else if m.target ≠ d.lastAnswer ∨ m.answer ≤ d.lastAnswer then
    .error (.outOfSequence d.id m.answer m.target d.lastAnswer)
  else do
    let state ← d.after (.receive m.body.step)
    .ok (touch { d with
      state
      lastAnswer := m.answer
      lastTarget := m.target
      replyRoute := some route } now)

/-- The route of the next step: back to where the last message came from, or a fresh one. -/
def sendRoute (d : Dialogue) (home : Address) : Route :=
  match d.replyRoute with
  | some r => r.swap
  | none => Route.towards home d.counterparty true

/-- The stamp of a step that is sent, and the dialogue behind it. -/
def send (d : Dialogue) (step : Step) (home : Address) (now : Millis) :
    Except Failure (Stamp × Dialogue) := do
  let state ← d.after (.send step)
  let stamp : Stamp := ⟨AnswerId.next d.lastAnswer, d.lastAnswer, d.sendRoute home⟩
  .ok (stamp, touch { d with state, lastAnswer := stamp.answer, lastTarget := stamp.target } now)

/-- The dialogue behind an event that sends nothing. What is closed keeps its times. -/
def apply (d : Dialogue) (t : Transition) (now : Millis) : Except Failure Dialogue := do
  let state ← d.after t
  let next := { d with state }
  .ok (if d.isClosed then next else next.touch now)

/-- Whether the dialogue is live and has been quiet for a window. -/
def isIdle (d : Dialogue) (now window : Millis) : Bool := !d.isClosed && window ≤ now - d.updatedAt

/-- Whether the dialogue has been closed for a window. -/
def isExpired (d : Dialogue) (now window : Millis) : Bool :=
  match d.closedAt with
  | some t => window ≤ now - t
  | none => false

end Dialogue

end Negotiation
