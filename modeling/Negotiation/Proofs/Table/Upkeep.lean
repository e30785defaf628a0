import Negotiation.Proofs.Table.Runs

/-!
What every table looks like, whatever was called and when. A dialogue says of itself that it is closed
in two places, by its state and by the time noted, and the two always agree; a dialogue that has not
begun has no trace of a step. A table never holds more dialogues than it may, and what a dialogue is
known by stays as long as it is held.
-/

namespace Negotiation

namespace Dialogue

/-- A dialogue whose notes agree with its state. -/
structure Coherent (d : Dialogue) : Prop where
  closed_iff : d.isClosed ↔ d.closedAt ≠ none
  closed_at : ∀ time, d.closedAt = some time → time = d.updatedAt
  target_le : d.lastTarget ≤ d.lastAnswer
  idle : d.state = .idle →
    d.lastAnswer = 0 ∧ d.lastTarget = 0 ∧ d.replyRoute = none ∧ d.closedAt = none

variable {d : Dialogue}

theorem coherent_new (id : DialogueId) (counterparty : Address) (role : Role) (now : Millis) :
    (new id counterparty role now).Coherent :=
  ⟨⟨by rintro ⟨⟩, fun h => absurd rfl h⟩, by rintro time ⟨⟩, UInt32.le_refl _,
    fun _ => ⟨rfl, rfl, rfl, rfl⟩⟩

/-- A dialogue that was open and has begun, behind the note of the time. -/
theorem coherent_touch (hopen : d.closedAt = none) (hle : d.lastTarget ≤ d.lastAnswer)
    (hbegun : d.state ≠ .idle) (now : Millis) : (d.touch now).Coherent := by
  have hnote : (d.touch now).closedAt = if d.isClosed then some now else none := by
    simp [touch, hopen]
  refine ⟨?_, ?_, hle, fun hidle => absurd hidle hbegun⟩
  · rw [hnote]
    show d.isClosed ↔ _
    split <;> simp_all
  · intro time htime
    rw [hnote] at htime
    split at htime <;> cases htime
    rfl

namespace Coherent

/-- A dialogue is open before whatever changes it. -/
theorem open_of_next? (h : d.Coherent) {t : Transition} {s : State} (hs : d.state.next? t = some s)
    (ht : t ≠ .cancel) : d.closedAt = none := by
  by_contra hne
  exact ht (State.eq_cancel_of_isClosed (h.closed_iff.2 hne) hs).1

theorem received (h : d.Coherent) {m : Message} {s : State} (hx : d.Expects m)
    (hs : d.state.next? (.receive m.body.step) = some s) (route : Route) (now : Millis) :
    (d.received m route now s).Coherent := by
  have hle : m.target ≤ m.answer := hx.2.1 ▸ UInt32.le_of_lt hx.2.2
  exact coherent_touch
    (d := { d with state := s, lastAnswer := m.answer, lastTarget := m.target, replyRoute := some route })
    (h.open_of_next? hs (by simp [Transition.receive])) hle (State.ne_idle_of_next? hs) now

theorem sent (h : d.Coherent) {step : Step} {s : State} (hs : d.state.next? (.send step) = some s)
    (now : Millis) : (d.sent now s).Coherent :=
  coherent_touch
    (d := { d with state := s, lastAnswer := AnswerId.next d.lastAnswer, lastTarget := d.lastAnswer })
    (h.open_of_next? hs (by simp [Transition.send])) (AnswerId.le_next _) (State.ne_idle_of_next? hs) now

theorem applied (h : d.Coherent) {d' : Dialogue} {event : Transition} {now : Millis}
    (ha : d.apply event now = .ok d') : d'.Coherent := by
  obtain ⟨s, hs, rfl⟩ := apply_eq_ok_iff.1 ha
  by_cases hc : d.isClosed
  · -- only a cancel, which changes nothing
    obtain ⟨-, rfl⟩ := State.eq_cancel_of_isClosed hc hs
    simpa [hc] using h
  · have hopen : d.closedAt = none := not_not.1 (mt h.closed_iff.2 hc)
    simpa [hc] using coherent_touch (d := { d with state := s }) hopen h.target_le
      (State.ne_idle_of_next? hs) now

theorem call (h : d.Coherent) (c : Call) : (d.call c).2.Coherent := by
  cases c with
  | receive m route now =>
    rw [Dialogue.call]
    cases hr : d.receive m route now with
    | error f => exact h
    | ok d' =>
      obtain ⟨hx, s, hs, rfl⟩ := receive_eq_ok_iff.1 hr
      exact h.received hx hs route now
  | send step home now =>
    rw [Dialogue.call]
    cases hr : d.send step home now with
    | error f => exact h
    | ok r =>
      obtain ⟨s, hs, -, hd⟩ := send_eq_ok_iff.1 hr
      exact hd.symm ▸ h.sent hs now
  | apply event now =>
    rw [Dialogue.call]
    cases ha : d.apply event now with
    | error f => exact h
    | ok d' => exact h.applied ha

theorem run (h : d.Coherent) (cs : List Call) : (d.run cs).Coherent := by
  induction cs generalizing d with
  | nil => exact h
  | cons c cs ih => exact ih (h.call c)

end Coherent

end Dialogue

namespace Table

variable {t t' : Table}

/-! ### How many dialogues are held -/

theorem size_put_of_held {d d₀ : Dialogue} (h : t.get? d.id = some d₀) : (t.put d).size = t.size :=
  SortedMap.size_insert_of_some d h

theorem size_put_of_free {d : Dialogue} (h : t.get? d.id = none) : (t.put d).size = t.size + 1 :=
  SortedMap.size_insert_of_none d h

theorem size_remove_le (t : Table) (id : DialogueId) : (t.remove id).size ≤ t.size :=
  List.length_filter_le ..

theorem size_sweep_le (t : Table) (now : Millis) : (t.sweep now).2.size ≤ t.size :=
  Nat.le_trans (List.length_filter_le ..) (Nat.le_of_eq (List.length_map ..))

/-! ### Upkeep -/

/-- A table that holds no more than it may, each dialogue under its number and with notes that agree. -/
structure WellKept (t : Table) : Prop where
  size_le : t.size ≤ t.limits.capacity
  keyed : t.Keyed
  coherent : ∀ id d, t.get? id = some d → d.Coherent

theorem wellKept_new (limits : Limits) (start : UInt32) : (new limits start).WellKept :=
  ⟨Nat.zero_le _, fun id d hd => by simp at hd, fun id d hd => by simp at hd⟩

theorem Becomes.limits (h : t.Becomes t') : t'.limits = t.limits := by
  cases h <;> rfl

/-- Only a table with room gets larger. -/
theorem Becomes.size_le (h : t.Becomes t') (hk : t.Keyed) (hle : t.size ≤ t.limits.capacity) :
    t'.size ≤ t.limits.capacity := by
  cases h with
  | kept a => exact hle
  | @stepped id d hd cs =>
    have hheld : t.get? (d.run cs).id = some d := by rw [d.run_id, hk _ _ hd, hd]
    exact (size_put_of_held hheld).symm ▸ hle
  | @made a id hn hroom counterparty role now cs =>
    have hfree : t.get? ((Dialogue.new id counterparty role now).run cs).id = none := by
      rw [Dialogue.run_id]
      exact hn
    have hlt : t.size < t.limits.capacity := by
      rw [isFull, decide_eq_true_iff, Nat.not_le] at hroom
      exact hroom
    have hsize := size_put_of_free (t := { t with allocator := a }) hfree
    exact hsize ▸ hlt
  | removed id => exact Nat.le_trans (t.size_remove_le id) hle
  | swept now => exact Nat.le_trans (t.size_sweep_le now) hle

theorem WellKept.call (h : t.WellKept) (c : Call) : (t.call c).WellKept := by
  have hb := t.becomes_call c
  refine ⟨hb.limits ▸ hb.size_le h.keyed h.size_le, h.keyed.call c, fun id d' hd' => ?_⟩
  rcases hb.entry h.keyed hd' with ⟨d, cs, hd, rfl⟩ | ⟨counterparty, role, now, cs, -, rfl⟩
  · exact (h.coherent id d hd).run cs
  · exact (Dialogue.coherent_new id counterparty role now).run cs

theorem WellKept.run (h : t.WellKept) (cs : List Call) : (t.run cs).WellKept := by
  induction cs generalizing t with
  | nil => exact h
  | cons c cs ih => exact ih (h.call c)

theorem Reachable.wellKept (h : t.Reachable) : t.WellKept := by
  obtain ⟨limits, start, cs, rfl⟩ := h
  exact (wellKept_new limits start).run cs

theorem limits_run (t : Table) (cs : List Call) : (t.run cs).limits = t.limits := by
  induction cs generalizing t with
  | nil => rfl
  | cons c cs ih => exact (ih (t.call c)).trans (t.becomes_call c).limits

/-! ### What a dialogue is known by -/

theorem run_append (t : Table) (xs ys : List Call) : t.run (xs ++ ys) = (t.run xs).run ys :=
  List.foldl_append ..

/-- A dialogue that is held before and behind a call is the same one. -/
theorem identity_of_call (hk : t.Keyed) (c : Call) {id : DialogueId} {d d' : Dialogue}
    (hd : t.get? id = some d) (hd' : (t.call c).get? id = some d') : d'.identity = d.identity := by
  rcases (t.becomes_call c).entry hk hd' with ⟨d₀, cs, hd₀, rfl⟩ | ⟨_, _, _, _, hn, -⟩
  · obtain rfl : d = d₀ := Option.some.inj (hd.symm.trans hd₀)
    exact d.run_identity cs
  · rw [hn] at hd
    cases hd

/-- A dialogue that is held all along a run is the same one at its end. -/
theorem identity_of_run (hk : t.Keyed) {cs : List Call} {id : DialogueId} {d d' : Dialogue}
    (hheld : ∀ xs, xs <+: cs → (t.run xs).contains id) (hd : t.get? id = some d)
    (hd' : (t.run cs).get? id = some d') : d'.identity = d.identity := by
  induction cs generalizing t d with
  | nil =>
    obtain rfl : d = d' := Option.some.inj (hd.symm.trans hd')
    rfl
  | cons c cs ih =>
    obtain ⟨d₁, hd₁⟩ := ((t.call c).contains_iff id).1 (hheld [c] (List.prefix_append [c] cs))
    have hrest : ∀ xs, xs <+: cs → ((t.call c).run xs).contains id :=
      fun xs hxs => hheld (c :: xs) (List.cons_prefix_cons.2 ⟨rfl, hxs⟩)
    exact (ih (hk.call c) hrest hd₁ hd').trans (identity_of_call hk c hd hd₁)

/-- UPKEEP: in every table that comes about by its operations, no more dialogues are held than the
    limits allow, each under its own number; of each dialogue the time of closing is noted just when
    it is closed, and is then the time of its last change, the step it answered is numbered no higher
    than its own, and before the first step nothing is noted; and as long as a dialogue is held, its
    number, its counterparty, its role and the time of its making stay. -/
theorem upkeep_of_run (limits : Limits) (start : UInt32) (cs : List Call) :
    let t := (new limits start).run cs
    t.size ≤ limits.capacity ∧
    (∀ id d, t.get? id = some d → d.id = id) ∧
    (∀ id d, t.get? id = some d → d.Coherent) ∧
    ∀ xs ys id d d', cs = xs ++ ys →
      (∀ zs, zs <+: ys → ((new limits start).run (xs ++ zs)).contains id) →
      ((new limits start).run xs).get? id = some d → t.get? id = some d' →
      d'.id = d.id ∧ d'.counterparty = d.counterparty ∧ d'.role = d.role ∧ d'.createdAt = d.createdAt := by
  intro t
  have hkept : t.WellKept := (wellKept_new limits start).run cs
  have hlimits : t.limits = limits := limits_run (new limits start) cs
  refine ⟨hlimits ▸ hkept.size_le, hkept.keyed, hkept.coherent, ?_⟩
  rintro xs ys id d d' rfl hheld hd hd'
  have hk : ((new limits start).run xs).Keyed := ((wellKept_new limits start).run xs).keyed
  have hheld : ∀ zs, zs <+: ys → (((new limits start).run xs).run zs).contains id := by
    intro zs hzs
    rw [← run_append]
    exact hheld zs hzs
  have hd' : (((new limits start).run xs).run ys).get? id = some d' := run_append .. ▸ hd'
  have hsame : d'.identity = d.identity := identity_of_run hk hheld hd hd'
  simpa [Dialogue.identity] using hsame

/-- A call that is called off and swept over is the dialogue that was opened, closed when it was
    called off. -/
theorem call_off_noted :
    let before : List Call := [.openOutbound (.ofKey "bob") 3, .send 1 .cfp (.ofKey "alice") 4]
    let behind : List Call := [.apply 1 .cancel 5, .sweep 6]
    let t := (new {} 1).run (before ++ behind)
    t.size ≤ 10000 ∧ ∃ d, t.get? 1 = some d ∧ d.isClosed ∧ d.closedAt = some d.updatedAt ∧
      d.counterparty = .ofKey "bob" ∧ d.role = .initiator ∧ d.createdAt = 3 := by
  intro before behind t
  obtain ⟨hsize, -, hcoherent, hsame⟩ := upkeep_of_run {} 1 (before ++ behind)
  obtain ⟨d₀, hd₀, hopened⟩ : ∃ d, ((new {} 1).run before).get? 1 = some d ∧
      (d.counterparty, d.role, d.createdAt) = (.ofKey "bob", .initiator, 3) := ⟨_, rfl, rfl⟩
  obtain ⟨d, hd, hclosed⟩ : ∃ d, t.get? 1 = some d ∧ d.isClosed := ⟨_, rfl, rfl⟩
  have hheld : ∀ zs, zs <+: behind → ((new {} 1).run (before ++ zs)).contains 1 := by
    intro zs hzs
    simp only [behind, List.prefix_cons_iff, List.prefix_nil] at hzs
    rcases hzs with rfl | ⟨_, rfl, rfl | ⟨_, rfl, rfl⟩⟩ <;> rfl
  obtain ⟨-, hpeer, hrole, hmade⟩ := hsame before behind 1 d₀ d rfl hheld hd₀ hd
  obtain ⟨time, htime⟩ := Option.ne_none_iff_exists'.1 ((hcoherent 1 d hd).closed_iff.1 hclosed)
  simp only [Prod.mk.injEq] at hopened
  refine ⟨hsize, d, hd, hclosed, ?_, hpeer.trans hopened.1, hrole.trans hopened.2.1,
    hmade.trans hopened.2.2⟩
  rw [htime, (hcoherent 1 d hd).closed_at time htime]

end Table

end Negotiation
