import Negotiation.Proofs.Exchange.Confinement

/-!
How messages get into mailboxes. Whoever joins, leaves, stops reading or takes events only takes events
out of mailboxes; only a request puts something in. Main statement (`agent_mem_waiting_submit`): a
message that waits behind a request waited before, or the request was to send it there and was taken.
-/

namespace Negotiation

namespace Exchange

variable {x y : Exchange} {key other : String} {e ev : Event} {m : Message}

/-! ### Out of mailboxes -/

theorem waiting_disconnect (x : Exchange) (key other : String) :
    (x.disconnect key).waiting other = x.waiting other := by
  cases hb : x.mailbox? key with
  | none => rw [disconnect, hb]
  | some b =>
    have hbox : (x.disconnect key).waiting other =
        (x.setMailbox key { b with connected := false }).waiting other := by
      rw [disconnect_eq hb]
      rfl
    rw [hbox, waiting_setMailbox]
    split
    · next h => rw [← h, waiting_of_mailbox? hb]
    · rfl

theorem mem_waiting_of_abandon (h : e ∈ (x.abandon key).waiting other) : e ∈ x.waiting other := by
  rw [abandon] at h
  split at h
  · rw [waiting_setMailbox] at h
    split at h
    · cases h
    · exact h
  · exact h

theorem mem_waiting_of_connect (hy : x.connect key = .ok y) (h : e ∈ y.waiting other) :
    e ∈ x.waiting other := by
  rw [connect] at hy
  split at hy
  · cases hy
  · split at hy
    · cases hy
    · obtain rfl := Except.ok.inj hy
      rw [waiting_setMailbox] at h
      split at h
      · cases h
      · exact h

/-- Nothing is taken, or the front of the mailbox. -/
theorem take_cases (x : Exchange) (key : String) : x.take key = (none, x) ∨
    ∃ (b : Mailbox) (e : Event) (rest : List Event), x.waiting key = e :: rest ∧
      x.take key = (some e, x.setMailbox key { b with events := rest }) := by
  rw [take, waiting]
  split
  · next b _ =>
    split
    · next e rest he => exact .inr ⟨b, e, rest, he, rfl⟩
    · exact .inl rfl
  · exact .inl rfl

theorem mem_waiting_of_take (h : e ∈ (x.take key).2.waiting other) : e ∈ x.waiting other := by
  rcases x.take_cases key with ht | ⟨b, e', rest, hw, ht⟩ <;> rw [ht] at h
  · exact h
  · rw [waiting_setMailbox] at h
    split at h
    · next hk =>
      rw [← hk, hw]
      exact List.mem_cons_of_mem _ h
    · exact h

theorem mem_waiting_of_taken (h : (x.take key).1 = some e) : e ∈ x.waiting key := by
  rcases x.take_cases key with ht | ⟨b, e', rest, hw, ht⟩ <;> rw [ht] at h
  · cases h
  · obtain rfl := Option.some.inj h
    rw [hw]
    exact List.mem_cons_self

/-! ### Into mailboxes -/

theorem mem_waiting_post {dest : String} (h : e ∈ (x.post dest ev).2.waiting key) :
    e ∈ x.waiting key ∨ e = ev ∧ dest = key ∧ (x.post dest ev).1 = .ok () := by
  rw [post] at h ⊢
  cases hb : x.mailbox? dest with
  | none =>
    rw [hb] at h
    exact .inl h
  | some b =>
    simp only [hb] at h ⊢
    split at h
    · exact .inl (waiting_disconnect x dest key ▸ h)
    · next hr =>
      split at h
      · exact .inl h
      · next hc =>
        rw [waiting_setMailbox] at h
        split at h
        · next hk =>
          rcases List.mem_append.1 h with h | h
          · exact .inl (hk ▸ waiting_of_mailbox? hb ▸ h)
          · exact .inr ⟨List.mem_singleton.1 h, hk, by rw [if_neg hr, if_neg hc]⟩
        · exact .inl h

theorem mem_waiting_respond (h : e ∈ (x.respond key ev).2.waiting other) : e ∈ x.waiting other ∨ e = ev :=
  (mem_waiting_post (x.respond_snd key ev ▸ h)).imp_right And.left

theorem agent_mem_waiting_deliver {o : Outgoing} {dest : String}
    (h : .agent m ∈ (x.deliver key o).2.waiting dest) : .agent m ∈ x.waiting dest ∨
      m = o.delivered (.ofKey key) ∧ (∃ a, o.destination? = some a ∧ a.key = dest) ∧
        (x.deliver key o).1 = .ok () := by
  rw [deliver] at h ⊢
  split at h
  · exact .inl h
  · next hc =>
    rw [if_neg hc]
    cases hd : o.destination? with
    | none =>
      rw [hd] at h
      exact .inl h
    | some a =>
      simp only [hd] at h ⊢
      rcases hp : x.post a.key (.agent (o.delivered (.ofKey key))) with ⟨r, x'⟩
      have hmem : .agent m ∈ x'.waiting dest → .agent m ∈ x.waiting dest ∨
          m = o.delivered (.ofKey key) ∧ a.key = dest ∧ r = .ok () := by
        intro hm
        have hposted : .agent m ∈ (x.post a.key (.agent (o.delivered (.ofKey key)))).2.waiting dest := hp ▸ hm
        have hpost := mem_waiting_post hposted
        rwa [hp, Event.agent.injEq] at hpost
      simp only [hp] at h ⊢
      split at h
      · -- nobody is there, and the sender is told
        next heq =>
        cases heq
        rcases mem_waiting_respond h with h | h
        · rcases hmem h with h | ⟨-, -, hr⟩
          · exact .inl h
          · cases hr
        · cases h
      · next hne =>
        rcases hmem h with h | ⟨hm, hk, rfl⟩
        · exact .inl h
        · exact .inr ⟨hm, ⟨a, rfl, hk⟩, rfl⟩

/-- ARRIVALS: a message that waits behind a request waited before, or the request was to send it there
    and was taken. -/
theorem agent_mem_waiting_submit {r : Request} {dest : String}
    (h : .agent m ∈ (x.submit key r).2.waiting dest) : .agent m ∈ x.waiting dest ∨
      ∃ o, r = .send o ∧ m = o.delivered (.ofKey key) ∧ (∃ a, o.destination? = some a ∧ a.key = dest) ∧
        (x.submit key r).1 = .ok () := by
  have hresponse : ∀ {ev}, (∀ m', ev ≠ .agent m') → .agent m ∈ (x.respond key ev).2.waiting dest →
      .agent m ∈ x.waiting dest := fun hne hm =>
    (mem_waiting_respond hm).resolve_right fun he => hne m he.symm
  cases r with
  | send o => exact (agent_mem_waiting_deliver h).imp_right fun hsent => ⟨o, rfl, hsent⟩
  | register id route d => exact .inl h
  | unregister id route d =>
    rw [submit, unregister] at h
    split at h
    · exact .inl h
    · exact .inl (hresponse (by simp) h)
  | search id query => exact .inl (hresponse (by simp) h)
  | searchWide id query => exact .inl (hresponse (by simp) h)

end Exchange

end Negotiation
