import Negotiation.Route

/-!
The states of a dialogue and the transitions between them. A proposal is negotiated by call for
proposals, proposal, and accept; a free conversation consists of messages only. `State.next?` is the
whole table: a closed dialogue stays as it is, and every live one can be aborted or time out.
-/

namespace Negotiation

/-- A step that one agent takes towards the other. -/
inductive Step where
  | cfp
  | propose
  | accept
  | decline
  | message
  deriving DecidableEq, Inhabited

namespace Step

/-- Whether a dialogue can start with the step. -/
def opens : Step → Bool
  | .cfp => true
  | .message => true
  | _ => false

/-- The name of a step. -/
def name : Step → String
  | .cfp => "cfp"
  | .propose => "propose"
  | .accept => "accept"
  | .decline => "decline"
  | .message => "message"

end Step

/-- Why a dialogue is closed. -/
inductive CloseReason where
  | declined
  | completed
  | aborted
  | timedOut
  deriving DecidableEq, Inhabited

/-- The name of a reason. -/
def CloseReason.name : CloseReason → String
  | .declined => "Declined"
  | .completed => "Completed"
  | .aborted => "Aborted"
  | .timedOut => "TimedOut"

/-- Where a dialogue stands, as one agent sees it. -/
inductive State where
  | idle
  | cfpSent
  | cfpReceived
  | proposalSent
  | proposalReceived
  | accepted
  | messaging
  | closed (reason : CloseReason)
  deriving DecidableEq, Inhabited

/-- What can happen to a dialogue. -/
inductive Transition where
  | step (s : Step) (direction : Direction)
  | complete
  | cancel
  | dialogueError
  | timeout
  deriving DecidableEq, Inhabited

namespace Transition

/-- A step that the agent sends. -/
def send (s : Step) : Transition := .step s .outbound

/-- A step that the agent receives. -/
def receive (s : Step) : Transition := .step s .inbound

/-- The text of a transition. -/
def text : Transition → String
  | .step s .outbound => "send " ++ s.name
  | .step s .inbound => "receive " ++ s.name
  | .complete => "complete"
  | .cancel => "cancel"
  | .dialogueError => "dialogue error"
  | .timeout => "timeout"

end Transition

namespace State

/-- Whether a state is final. -/
def isClosed : State → Bool
  | .closed _ => true
  | _ => false

/-- Why a dialogue in this state is closed. -/
def closeReason? : State → Option CloseReason
  | .closed reason => some reason
  | _ => none

/-- The text of a state. -/
def text : State → String
  | .idle => "idle"
  | .cfpSent => "cfp_sent"
  | .cfpReceived => "cfp_received"
  | .proposalSent => "proposal_sent"
  | .proposalReceived => "proposal_received"
  | .accepted => "accepted"
  | .messaging => "messaging"
  | .closed reason => "closed(" ++ reason.name ++ ")"

/-- Where a step leads. -/
def afterStep? : State → Step → Direction → Option State
  | .idle, .cfp, .outbound => some .cfpSent
  | .idle, .cfp, .inbound => some .cfpReceived
  | .cfpReceived, .propose, .outbound => some .proposalSent
  | .cfpSent, .propose, .inbound => some .proposalReceived
  | .proposalReceived, .accept, .outbound => some .accepted
  | .proposalSent, .accept, .inbound => some .accepted
  | .cfpSent, .decline, _ => some (.closed .declined)
  | .cfpReceived, .decline, _ => some (.closed .declined)
  | .proposalSent, .decline, _ => some (.closed .declined)
  | .proposalReceived, .decline, _ => some (.closed .declined)
  | .accepted, .message, _ => some .accepted
  | .idle, .message, _ => some .messaging
  | .messaging, .message, _ => some .messaging
  | _, _, _ => none

/-- Where a transition leads; none when it is illegal. Cancelling what is closed changes nothing. -/
def next? : State → Transition → Option State
  | .closed reason, .cancel => some (.closed reason)
  | .closed _, _ => none
  | _, .cancel => some (.closed .aborted)
  | _, .dialogueError => some (.closed .aborted)
  | _, .timeout => some (.closed .timedOut)
  | .accepted, .complete => some (.closed .completed)
  | .messaging, .complete => some (.closed .completed)
  | _, .complete => none
  | s, .step step direction => s.afterStep? step direction

end State

end Negotiation
