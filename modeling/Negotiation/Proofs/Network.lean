import Negotiation.Network
import Negotiation.Proofs.Agent.Runs
import Negotiation.Proofs.Exchange

/-!
What an agent of a network does when it takes an event. If the event is accepted and all actions that
the application asks for succeed, then the agent has taken the event without a failure.
-/

namespace Negotiation.Network

variable {σ : Type} {n : Network σ} {h : Handler σ} {now : Millis} {bound : σ → Event → Nat}
  {key : String}

/-- The actions that an agent executes when it takes the first event that waits for it, each with the
engine before it. -/
def executed (h : Handler σ) (now : Millis) (bound : σ → Event → Nat) (n : Network σ) (key : String) :
    List (Linked Exchange × Action) :=
  match n.members.get? key, n.exchange.take key with
  | some ⟨engine, memory, true⟩, (some e, exchange) =>
    let (news, engine, _) := engine.observe now e
    let (actions, memory') := h.react memory news
    Linked.executed (Exchange.connection key) h now (bound memory e) ⟨engine, exchange⟩ memory' actions
  | _, _ => []

/-- The verdicts on the actions that an agent executes. -/
def verdicts (h : Handler σ) (now : Millis) (bound : σ → Event → Nat) (n : Network σ) (key : String) :
    List (Except Failure Unit) :=
  (n.executed h now bound key).map fun p => (p.1.execute (Exchange.connection key) now p.2).1

theorem executed_of_waiting_nil (hw : n.exchange.waiting key = []) :
    n.executed h now bound key = [] := by
  rw [executed, Exchange.take_of_waiting_nil hw]
  split
  · next hs => cases hs
  · rfl

theorem take_of_waiting_nil (hw : n.exchange.waiting key = []) : n.take h now bound key = none := by
  rw [take, Exchange.take_of_waiting_nil hw]
  split
  · next hs => cases hs
  · rfl

section Taken

variable {e e' : Engine} {memory memory' : σ} {ev : Event} {events : List Event} {news : Notice}
  {actions : List Action} {s : Linked Exchange}

theorem take_ok (hm : n.members.get? key = some ⟨e, memory, true⟩)
    (hx : n.exchange.Keeps key (ev :: events)) (hobs : e.observe now ev = (news, e', .ok ()))
    (hreact : h.react memory news = (actions, memory'))
    (hs : Linked.Succeeds (Exchange.connection key) now ⟨e', n.exchange.setMailbox key { events }⟩
      actions s) (hb : actions.length ≤ bound memory ev) :
    n.take h now bound key = some (ev, .ok (), n.put key s memory') ∧
    ∀ v ∈ n.verdicts h now bound key, v = .ok () := by
  constructor
  · rw [take, hm, Exchange.take_of_keeps hx]
    simp only [Linked.handle, hobs, Linked.notify, hreact, hs.performFor_eq h memory' hb]
    rfl
  · rw [verdicts, executed, hm, Exchange.take_of_keeps hx]
    simp only [hobs, hreact, List.forall_mem_map]
    exact hs.executed_ok h memory' _

end Taken

end Negotiation.Network
