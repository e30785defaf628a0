import Negotiation.Dialogue.State
import Negotiation.Service.Offer

/-!
Messages between agents. Each belongs to a dialogue and carries its own number and the number of the
message it answers; an agent numbers what it sends, and delivery sets the sender.
-/

namespace Negotiation

/-- The number of a dialogue. -/
abbrev DialogueId := UInt32

/-- The number of a message in its dialogue; 0 stands for the start, before any message. -/
abbrev AnswerId := UInt32

/-- The number behind a number; the last one is followed by itself. -/
def AnswerId.next (a : AnswerId) : AnswerId := if a = 0xFFFFFFFF then a else a + 1

/-- What a message says. -/
inductive Body where
  | cfp (payload : Cfp)
  | propose (proposal : Proposal)
  | accept
  | decline
  | message (content : Bytes)
  deriving DecidableEq

/-- The step that a message takes. -/
def Body.step : Body → Step
  | .cfp _ => .cfp
  | .propose _ => .propose
  | .accept => .accept
  | .decline => .decline
  | .message _ => .message

/-- A message as it arrives. -/
structure Message where
  answer : AnswerId
  dialogue : DialogueId
  origin : Address
  target : AnswerId
  body : Body
  sourceUri : String := ""
  targetUri : String := ""
  deriving DecidableEq

/-- The route by which a message reached `home`. -/
def Message.route (m : Message) (home : Address) : Route :=
  .received m.origin home m.sourceUri m.targetUri

/-- A message as it is handed over for delivery. -/
structure Outgoing where
  answer : AnswerId
  dialogue : DialogueId
  target : AnswerId
  route : Route
  body : Body
  deriving DecidableEq

namespace Outgoing

/-- Who the message goes to. -/
def destination? (m : Outgoing) : Option Address := m.route.destination?

/-- The sender that the receiver is told: what the route says, if that is the sending agent. -/
def originFor (m : Outgoing) (sender : Address) : Address :=
  match m.route.origin? with
  | some a => if a.sameAgent sender then a else sender
  | none => sender

/-- The message as it arrives when `sender` sends it. -/
def delivered (m : Outgoing) (sender : Address) : Message :=
  { answer := m.answer
    dialogue := m.dialogue
    origin := m.originFor sender
    target := m.target
    body := m.body
    sourceUri := m.route.source.text
    targetUri := m.route.target.text }

end Outgoing

end Negotiation
