import Negotiation.Proofs.Agent.Lasting
import Negotiation.Proofs.Route.Uri

/-!
The routes along which an engine answers. What it sends in a dialogue goes to the counterparty or to
nobody (`Aims`). It keeps to the straight route of a label with an agent, under one number, if it opens
its dialogues with the agent there and the agent's messages come along it (`KeepsLane`); every step of
the engine keeps this.
-/

namespace Negotiation

/-! ### Where dialogues aim -/

namespace Uri

variable {u : Uri} {a b : Address}

theorem key_of_ofAddress (h : (ofAddress a).address? = some b) : b.key = a.key := by
  rw [address?] at h
  split at h
  · cases h
  · obtain rfl := Option.some.inj h
    rfl

/-- Whatever a text names, nobody but the agent expected is named. -/
theorem key_of_namingOr (h : (u.namingOr a).address? = some b) : b.key = a.key := by
  rw [namingOr] at h
  cases hu : u.address? with
  | none =>
    rw [hu] at h
    exact key_of_ofAddress h
  | some c =>
    simp only [hu] at h
    split at h
    · next hs =>
      obtain rfl := Option.some.inj (hu.symm.trans h)
      exact of_decide_eq_true hs
    · exact key_of_ofAddress h

end Uri

namespace Dialogue

/-- What is sent in a dialogue goes to its counterparty, or to nobody. -/
def Aims (home : Address) (d : Dialogue) : Prop :=
  ∀ a, (d.sendRoute home).destination? = some a → a.key = d.counterparty.key

theorem lasting_aims (home : Address) : Lasting home (fun _ => True) (Aims home) where
  opened _ _ _ h := Uri.key_of_ofAddress h
  called _ _ _ _ h := Uri.key_of_namingOr h
  sent h _ := h
  received {d m now s} _ hx _ a h := by
    have hkey : m.origin.key = d.counterparty.key := of_decide_eq_true hx.1
    exact (Uri.key_of_namingOr h).trans hkey
  applied h _ ha := by
    obtain ⟨s, -, rfl⟩ := apply_eq_ok_iff.1 ha
    split <;> exact h

/-- An event that sends nothing leaves counterparty and route. -/
theorem sendRoute_of_apply {d d' : Dialogue} {t : Transition} {now : Millis} (h : d.apply t now = .ok d')
    (home : Address) : d'.counterparty = d.counterparty ∧ d'.sendRoute home = d.sendRoute home := by
  obtain ⟨s, -, rfl⟩ := apply_eq_ok_iff.1 h
  split <;> exact ⟨rfl, rfl⟩

end Dialogue

/-! ### Lanes -/

namespace Engine

variable {e e' : Engine} {id : DialogueId} {peer label : String} {now : Millis} {P : Dialogue → Prop}

/-- If an engine holds a number with an agent, it answers there along the lane of a label. -/
def KeepsLane (id : DialogueId) (peer label : String) (e : Engine) : Prop :=
  ∀ d, e.table.get? id = some d → d.counterparty.key = peer →
    d.sendRoute e.home = .lane e.home.key peer label

namespace KeepsLane

theorem put {d : Dialogue} (h : e.KeepsLane id peer label)
    (hd : d.id = id → d.counterparty.key = peer → d.sendRoute e.home = .lane e.home.key peer label) :
    (e.put d).KeepsLane id peer label := by
  intro d' hd'
  rw [get?_put] at hd'
  split at hd'
  · next hid =>
    obtain rfl := Option.some.inj hd'
    exact hd hid
  · exact h d' hd'

/-- An event that sends nothing costs no lane. -/
theorem applied (hholds : e.Holds P) (h : e.KeepsLane id peer label) {id' : DialogueId} {d d' : Dialogue}
    {t : Transition} (hd : e.table.get? id' = some d) (ha : d.apply t now = .ok d') :
    (e.put d').KeepsLane id peer label := by
  refine h.put fun hid hpeer => ?_
  obtain ⟨hcounterparty, hroute⟩ := Dialogue.sendRoute_of_apply ha e.home
  have hid' : id' = id := ((Dialogue.apply_id ha).trans (hholds id' d hd).1).symm.trans hid
  exact hroute.trans (h d (hid' ▸ hd) (hcounterparty ▸ hpeer))

theorem sweep (h : e.KeepsLane id peer label) (now : Millis) : (e.sweep now).2.KeepsLane id peer label := by
  intro d' hd' hpeer
  rw [get?_sweep] at hd'
  obtain ⟨d, hd, hs⟩ := Option.bind_eq_some_iff.1 hd'
  rcases Table.swept_eq_some hs with rfl | ⟨-, ha⟩
  · exact h d' hd hpeer
  · obtain ⟨hcounterparty, hroute⟩ := Dialogue.sendRoute_of_apply ha e.home
    exact hroute.trans (h d hd (hcounterparty ▸ hpeer))

/-- An engine stays on the lane if the messages of the agent reach it there. -/
theorem observe (hholds : e.Holds P) (h : e.KeepsLane id peer label) {ev : Event}
    (hev : ∀ m, ev = .agent m → m.dialogue = id → m.origin.key = peer →
      m.route e.home = { Route.lane peer e.home.key label with direction := .inbound }) :
    (e.observe now ev).2.1.KeepsLane id peer label := by
  rcases e.observe_engine now ev with he | ⟨m, d', rfl, hr, he⟩ | ⟨_, id', _, d, d', rfl, hg, ha, he⟩ <;>
    rw [he]
  · exact h
  · refine h.put fun hid hpeer => ?_
    have hdialogue : m.dialogue = id := by
      rw [← hholds.found_id m now, ← hid, Dialogue.receive_id hr]
    obtain ⟨hx, s, -, rfl⟩ := Dialogue.receive_eq_ok_iff.1 hr
    have horigin : m.origin.key = peer := (of_decide_eq_true hx.1 : m.origin.key = _).trans hpeer
    calc ((e.found m now).received m (m.route e.home) now s).sendRoute e.home
        = (m.route e.home).swap := rfl
      _ = Route.swap { Route.lane peer e.home.key label with direction := .inbound } := by
        rw [hev m rfl hdialogue horigin]
      _ = .lane e.home.key peer label := Route.swap_lane ..
  · exact h.applied hholds hg ha

/-- An engine stays on the lane if it opens its dialogues with the agent under that number there. -/
theorem carryOut {β : Type} {s : Linked β} (T : Transport β) {deed : Deed} (hholds : s.engine.Holds P)
    (h : s.engine.KeepsLane id peer label)
    (hopen : ∀ called body, deed = .opening called body → (s.openDialogue T now called body).1 = .ok id →
      called.key = peer → called.label.getD "" = label) :
    (s.carryOut T now deed).2.engine.KeepsLane id peer label := by
  rcases Linked.carryOut_engine T now s deed with ⟨a, he⟩ | ⟨called, body, _, _, _, rfl, -⟩ |
    ⟨id', body, d, st, rfl, hg, -, he⟩ | ⟨id', t, d, d', rfl, hg, ha, he⟩
  · rw [he]
    exact h
  · show (s.openDialogue T now called body).2.engine.KeepsLane id peer label
    rcases s.openDialogue_engine T now called body with ⟨a, he⟩ | ⟨id', a, st, -, -, hok, he⟩ <;> rw [he]
    · exact h
    · refine put (e := s.engine.allocating a) h fun hid hpeer => ?_
      obtain rfl : id' = id := hid
      rw [← hopen called body rfl hok hpeer, ← hpeer]
      exact Route.towards_eq_lane ..
  · rw [he]
    refine h.put fun hid hpeer => ?_
    have hid' : id' = id := (hholds id' d hg).1.symm.trans hid
    exact h d (hid' ▸ hg) hpeer
  · rw [he]
    exact h.applied hholds hg ha

end KeepsLane

/-! ### Messages that are handed over -/

/-- A message that is handed over opens a dialogue, along a fresh route, or answers in one. -/
theorem handover_cases {deed : Deed} {o : Outgoing} (h : e.handover? now deed = some (o, e')) :
    (∃ called body, deed = .opening called body ∧ o.route = .towards e.home called true) ∨
    ∃ d, e.table.get? o.dialogue = some d ∧ o.route = d.sendRoute e.home := by
  cases deed with
  | opening called body =>
    rw [handover?] at h
    rcases e.opening_cases now called body with ⟨f, a, ho⟩ | ⟨id, a, s, -, -, ho⟩ <;> rw [ho] at h
    · cases h
    · cases h
      exact .inl ⟨called, body, rfl, rfl⟩
  | answer id body =>
    rw [handover?] at h
    cases ha : e.answering now id body with
    | error f => rw [ha] at h; cases h
    | ok r =>
      rw [ha] at h
      obtain rfl := Option.some.inj h
      obtain ⟨d, s, hg, -, rfl, -⟩ := answering_eq_ok_iff.1 ha
      exact .inr ⟨d, hg, rfl⟩
  | event id t => cases h

end Engine

namespace Linked

variable {β : Type}

/-- A deed without a message does not turn to the transport. -/
theorem link_of_handover_none (T : Transport β) {now : Millis} {s : Linked β} {deed : Deed}
    (h : s.engine.handover? now deed = none) : (s.carryOut T now deed).2.link = s.link := by
  cases deed with
  | opening peer body =>
    simp only [carryOut, done, openDialogue]
    rw [Engine.handover?] at h
    split at h
    · cases h
    · next f engine ho => rw [ho]
  | answer id body =>
    rw [carryOut, reply]
    rw [Engine.handover?] at h
    cases ha : s.engine.answering now id body with
    | error f => rfl
    | ok r => rw [ha] at h; cases h
  | event id t =>
    simp only [carryOut, done, apply]
    split <;> rfl

/-- A deed with a message submits it, and succeeds if and only if the message is taken. -/
theorem carryOut_of_handover (T : Transport β) {now : Millis} {s : Linked β} {deed : Deed} {o : Outgoing}
    {e : Engine} (h : s.engine.handover? now deed = some (o, e)) :
    (s.carryOut T now deed).2.link = (T.submit s.link (.send o)).2 ∧
    ((s.carryOut T now deed).1 = .ok () ↔ (T.submit s.link (.send o)).1 = .ok ()) := by
  have htransmit : ∀ engine, (transmit T ⟨engine, s.link⟩ o).2.link = (T.submit s.link (.send o)).2 ∧
      ((transmit T ⟨engine, s.link⟩ o).1 = .ok () ↔ (T.submit s.link (.send o)).1 = .ok ()) := by
    intro engine
    rcases hr : T.submit s.link (.send o) with ⟨te | ⟨⟩, link⟩ <;> simp [transmit, hr, Except.mapError]
  cases deed with
  | opening peer body =>
    rw [Engine.handover?] at h
    split at h
    · next m engine ho =>
      obtain ⟨rfl, rfl⟩ := Prod.mk.inj (Option.some.inj h)
      simp only [carryOut, done, openDialogue, ho]
      obtain ⟨hlink, hok⟩ := htransmit engine
      rcases ht : transmit T ⟨engine, s.link⟩ m with ⟨f | ⟨⟩, s'⟩ <;> rw [ht] at hlink hok
      · exact ⟨hlink, by simpa [Except.map] using hok⟩
      · exact ⟨hlink, by simpa [Except.map] using hok⟩
    · cases h
  | answer id body =>
    rw [Engine.handover?] at h
    cases ha : s.engine.answering now id body with
    | error f => rw [ha] at h; cases h
    | ok r =>
      rw [ha] at h
      obtain rfl := Option.some.inj h
      rw [carryOut, reply, ha]
      exact htransmit _
  | event id t => cases h

/-- An opening that succeeds has the number of its message. -/
theorem openDialogue_of_handover {T : Transport β} {now : Millis} {s : Linked β}
    {called : Address} {body : Body} {o : Outgoing} {e : Engine}
    (h : s.engine.handover? now (.opening called body) = some (o, e))
    (hok : (s.carryOut T now (.opening called body)).1 = .ok ()) :
    (s.openDialogue T now called body).1 = .ok o.dialogue := by
  rw [Engine.handover?] at h
  simp only [carryOut, done, openDialogue] at hok ⊢
  split at h
  · next m engine ho =>
    obtain ⟨rfl, rfl⟩ := Prod.mk.inj (Option.some.inj h)
    simp only [ho] at hok ⊢
    split at hok
    · rfl
    · cases hok
  · cases h

end Linked

end Negotiation
