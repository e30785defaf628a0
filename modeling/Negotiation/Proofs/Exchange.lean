import Negotiation.Exchange
import Negotiation.Proofs.SortedMap

/-!
What the broker does to mailboxes. A message for a connected agent with room in its mailbox goes to the
end of it and nowhere else; what is taken is the front.
-/

namespace Negotiation.Exchange

variable {x : Exchange} {key : String} {events : List Event} {e : Event}

/-- An agent is connected, takes events, and these wait for it. -/
def Keeps (x : Exchange) (key : String) (events : List Event) : Prop :=
  x.mailboxes.get? key = some { events }

theorem get?_setMailbox (x : Exchange) (key key' : String) (b : Mailbox) :
    (x.setMailbox key b).mailboxes.get? key' = if key = key' then some b else x.mailboxes.get? key' :=
  SortedMap.get?_insert ..

theorem waiting_setMailbox (x : Exchange) (key key' : String) (b : Mailbox) :
    (x.setMailbox key b).waiting key' = if key = key' then b.events else x.waiting key' := by
  simp only [waiting, get?_setMailbox]
  by_cases h : key = key'
  · simp only [if_pos h]
  · simp only [if_neg h]

theorem keeps_setMailbox (x : Exchange) (key : String) (events : List Event) :
    (x.setMailbox key { events }).Keeps key events := by
  rw [Keeps, get?_setMailbox, if_pos rfl]

theorem Keeps.eq {events' : List Event} (h : x.Keeps key events) (h' : x.Keeps key events') :
    events' = events :=
  congrArg Mailbox.events (Option.some.inj (h'.symm.trans h))

theorem Keeps.setMailbox_ne {key' : String} (h : x.Keeps key events) (hne : key' ≠ key) (b : Mailbox) :
    (x.setMailbox key' b).Keeps key events := by
  rw [Keeps, get?_setMailbox, if_neg hne]
  exact h

theorem mailbox?_of_keeps (h : x.Keeps key events) : x.mailbox? key = some { events } := by
  rw [mailbox?, h]
  rfl

theorem isConnected_of_keeps (h : x.Keeps key events) : x.isConnected key := by
  rw [isConnected, mailbox?_of_keeps h]
  rfl

theorem waiting_of_keeps (h : x.Keeps key events) : x.waiting key = events := by
  rw [waiting, h]

theorem take_of_keeps (h : x.Keeps key (e :: events)) :
    x.take key = (some e, x.setMailbox key { events }) := by
  rw [take, h]

theorem take_of_waiting_nil (h : x.waiting key = []) : x.take key = (none, x) := by
  rw [waiting] at h
  rw [take]
  cases hb : x.mailboxes.get? key with
  | none => rfl
  | some b =>
    simp only [hb] at h ⊢
    rw [h]

theorem post_of_keeps (h : x.Keeps key events) (hroom : events.length < x.capacity) (e : Event) :
    x.post key e = (.ok (), x.setMailbox key { events := events ++ [e] }) := by
  rw [post, mailbox?_of_keeps h]
  simp only [not_true_eq_false, if_false]
  exact if_neg (Nat.not_le.2 hroom)

/-- A response is a post to the agent that asked. -/
theorem respond_snd (x : Exchange) (key : String) (e : Event) :
    (x.respond key e).2 = (x.post key e).2 := by
  rw [respond]
  split
  · next h => rw [h]
  · rfl

theorem respond_of_keeps (h : x.Keeps key events) (hroom : events.length < x.capacity) (e : Event) :
    x.respond key e = (.ok (), x.setMailbox key { events := events ++ [e] }) := by
  simp only [respond, post_of_keeps h hroom]

theorem deliver_of_keeps {sender : String} {own : List Event} {m : Outgoing} {a : Address}
    (hs : x.Keeps sender own) (hd : m.destination? = some a) (h : x.Keeps a.key events)
    (hroom : events.length < x.capacity) : x.deliver sender m =
      (.ok (), x.setMailbox a.key { events := events ++ [.agent (m.delivered (.ofKey sender))] }) := by
  simp only [deliver, isConnected_of_keeps hs, not_true_eq_false, if_false, hd, post_of_keeps h hroom]

/-- The matching services when each agent has one, under the same name. -/
theorem map_fst_matching {q : Query} {name : String}
    (h : ∀ e ∈ x.services.toList, ∃ d, q.accepts d ∧ e.2.toList = [(name, d)]) :
    (x.matching q).map (·.1) = x.services.keys.map fun key => (Address.ofKey key).withLabel name := by
  calc (x.matching q).map (·.1)
      = x.services.toList.flatMap fun e => [(Address.ofKey e.1).withLabel name] := by
        rw [matching, allServices, List.filter_flatMap, List.map_flatMap, List.map_flatMap]
        refine List.flatMap_congr fun e he => ?_
        obtain ⟨d, hd, hlist⟩ := h e he
        simp [hlist, hd]
    _ = x.services.keys.map fun key => (Address.ofKey key).withLabel name := by
        rw [SortedMap.keys, List.map_map, List.map_eq_flatMap]
        rfl

end Negotiation.Exchange
