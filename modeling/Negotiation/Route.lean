import Negotiation.Route.Uri

/-!
Routes of messages: who sends, who receives, and the service the message is about. A route that was
received, swapped, leads back to the sender.
-/

namespace Negotiation

/-- Whether a message was received or is sent. -/
inductive Direction where
  | inbound
  | outbound
  deriving DecidableEq, Inhabited

/-- The other direction. -/
def Direction.reversed : Direction → Direction
  | .inbound => .outbound
  | .outbound => .inbound

/-- Where a message comes from and goes to. -/
structure Route where
  source : Uri
  target : Uri
  direct : Bool
  direction : Direction
  service : String
  deriving DecidableEq, Inhabited

namespace Route

/-- The route of a received message. A URI text counts only when it names the agent it should: the
sender as source, the receiver as target. -/
def received (origin home : Address) (sourceText targetText : String) : Route :=
  let target := (Uri.parse targetText).namingOr home
  { source := (Uri.parse sourceText).namingOr origin
    target
    direct := true
    direction := .inbound
    service := target.label }

/-- A fresh route to an agent; a direct one carries the label of the receiver on both ends. -/
def towards (home peer : Address) (direct : Bool) : Route :=
  let target := Uri.ofAddress peer
  let source := Uri.ofAddress home
  { source := if direct then { source with label := target.label } else source
    target
    direct
    direction := .outbound
    service := target.label }

/-- The route of a request about one of the agent's own services. -/
def ofService (home : Address) (service : String) : Route :=
  { source := Uri.ofAddress (home.withLabel service)
    target := Uri.nobody
    direct := false
    direction := .outbound
    service }

/-- The route back. -/
def swap (r : Route) : Route :=
  { r with source := r.target, target := r.source, direction := r.direction.reversed }

/-- Who the message comes from. -/
def origin? (r : Route) : Option Address := r.source.address?

/-- Who the message goes to. -/
def destination? (r : Route) : Option Address := r.target.address?

end Route

end Negotiation
