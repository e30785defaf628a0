import Negotiation.Agent.Event
import Negotiation.Dialogue.Failure

/-!
What carries the requests of an agent. A transport has a state of its own; each request is taken or
refused, and what follows from it is up to the transport.
-/

namespace Negotiation

/-- Something that an engine asks its transport to do. -/
inductive Request where
  | send (m : Outgoing)
  | register (id : RequestId) (route : Route) (d : Description)
  | unregister (id : RequestId) (route : Route) (d : Description)
  | search (id : RequestId) (query : Query)
  | searchWide (id : RequestId) (query : Query)
  deriving DecidableEq

/-- A transport with state `β`. -/
structure Transport (β : Type) where
  submit : β → Request → Except TransportError Unit × β

/-- A planned fault: after `skip` requests, `times` requests fail, or all when there is no count. -/
structure Fault where
  error : TransportError
  skip : Nat := 0
  times : Option Nat := none
  deriving DecidableEq

/-- What a recorder has taken, and the fault planned for it. -/
structure Recording where
  taken : List Request := []
  fault : Option Fault := none
  deriving DecidableEq

namespace Recording

/-- One request: refused when the fault is due, and recorded otherwise. -/
def submit (r : Recording) (request : Request) : Except TransportError Unit × Recording :=
  match r.fault with
  | some ⟨e, 0, none⟩ => (.error e, r)
  | some ⟨e, 0, some (n + 1)⟩ => (.error e, { r with fault := some ⟨e, 0, some n⟩ })
  | some ⟨e, skip + 1, times⟩ =>
    (.ok (), { taken := r.taken ++ [request], fault := some ⟨e, skip, times⟩ })
  | _ => (.ok (), { r with taken := r.taken ++ [request] })

end Recording

/-- The transport that records every request it takes. -/
def Transport.recorder : Transport Recording := ⟨Recording.submit⟩

end Negotiation
