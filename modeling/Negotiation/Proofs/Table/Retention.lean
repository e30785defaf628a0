import Negotiation.Proofs.Table.Answers
import Negotiation.Proofs.Table.Upkeep

/-!
What is closed stays as it is and keeps its number. No call changes a closed dialogue or takes it away,
a removal of it and a sweep late enough apart, and as long as it is held nothing else gets its number.
A sweep late enough removes it, and then it is unknown until it is opened again. Main statement:
`closed_dialogue_kept`.
-/

namespace Negotiation

namespace Dialogue

variable {d : Dialogue} {now : Millis}

/-! ### A closed dialogue by itself -/

theorem receive_of_isClosed (hc : d.isClosed) (m : Message) (route : Route) (now : Millis) :
    ∃ f, d.receive m route now = .error f := by
  cases hr : d.receive m route now with
  | error f => exact ⟨f, rfl⟩
  | ok d' =>
    obtain ⟨-, s, hs, -⟩ := receive_eq_ok_iff.1 hr
    cases (State.eq_cancel_of_isClosed hc hs).1

theorem next?_send_of_isClosed (hc : d.isClosed) (step : Step) : d.state.next? (.send step) = none := by
  cases hs : d.state.next? (.send step) with
  | none => rfl
  | some s => cases (State.eq_cancel_of_isClosed hc hs).1

theorem send_of_isClosed (hc : d.isClosed) (step : Step) (home : Address) (now : Millis) :
    d.send step home now = .error (.illegalTransition d.id d.state (.send step)) := by
  rw [send, after, next?_send_of_isClosed hc]
  rfl

theorem cancel_of_isClosed (hc : d.isClosed) (now : Millis) : d.apply .cancel now = .ok d := by
  have hs : d.state.next? .cancel = some d.state := by
    cases hstate : d.state with
    | closed reason => rfl
    | _ => simp [isClosed, State.isClosed, hstate] at hc
  exact apply_eq_ok_iff.2 ⟨d.state, hs, by simp [hc]⟩

theorem call_of_isClosed (hc : d.isClosed) (c : Call) : (d.call c).2 = d := by
  cases c with
  | receive m route now =>
    obtain ⟨f, hf⟩ := receive_of_isClosed hc m route now
    simp [call, hf]
  | send step home now => simp [call, send_of_isClosed hc]
  | apply event now =>
    rw [call]
    cases ha : d.apply event now with
    | error f => rfl
    | ok d' =>
      obtain ⟨s, hs, rfl⟩ := apply_eq_ok_iff.1 ha
      obtain ⟨-, rfl⟩ := State.eq_cancel_of_isClosed hc hs
      simp [hc]

theorem run_of_isClosed (hc : d.isClosed) (cs : List Call) : d.run cs = d := by
  induction cs with
  | nil => rfl
  | cons c cs ih =>
    show (d.call c).2.run cs = d
    rw [call_of_isClosed hc, ih]

end Dialogue

namespace Table

variable {t : Table} {c : Call} {id : DialogueId} {d : Dialogue} {time now : Millis}

/-! ### In a table -/

/-- What a table says of a closed dialogue as long as it holds it. -/
structure Keeps (t : Table) (id : DialogueId) (d : Dialogue) : Prop where
  held : t.get? id = some d
  receive_error : ∀ m route now, m.dialogue = id → ∃ f, t.receive m route now = .error f
  send_error : ∀ step home now,
    t.send id step home now = .error (.illegalTransition id d.state (.send step))
  not_opened : ∀ counterparty now, (t.openOutbound counterparty now).1 ≠ .ok id
  cancel_ok : ∀ now, t.apply id .cancel now = .ok (d.state, t)

theorem keeps_of_isClosed (hk : t.Keyed) (hd : t.get? id = some d) (hc : d.isClosed) : t.Keeps id d where
  held := hd
  receive_error := by
    rintro m route now rfl
    obtain ⟨f, hf⟩ := Dialogue.receive_of_isClosed hc m route now
    exact ⟨f, by rw [receive_held hd, hf]; rfl⟩
  send_error := by
    intro step home now
    rw [send, get, hd]
    simp [bind, Except.bind, Dialogue.send_of_isClosed hc, hk _ _ hd]
  not_opened := by
    intro counterparty now hok
    rcases t.openOutbound_cases counterparty now with ⟨a, ho⟩ | ⟨id', a, hn, ho⟩
    · rw [ho] at hok
      cases hok
    · rw [ho] at hok
      obtain rfl := Except.ok.inj hok
      rw [hd] at hn
      cases hn
  cancel_ok := by
    intro now
    have hput : t.put d = t := put_of_get? ((hk _ _ hd).symm ▸ hd)
    exact apply_eq_ok_iff.2 ⟨d, d, hd, Dialogue.cancel_of_isClosed hc now, rfl, hput.symm⟩

/-- A call leaves a closed dialogue held, unless it removes it or sweeps. -/
theorem held_call (hk : t.Keyed) (hd : t.get? id = some d) (hremove : c ≠ .remove id)
    (hsweep : ∀ now, c ≠ .sweep now) : ∃ d', (t.call c).get? id = some d' := by
  cases hc : c.target? with
  | some id' =>
    by_cases hid : id = id'
    · rcases call_of_target hk hc with h | rfl | ⟨d', hid', h⟩
      · exact ⟨d, h.symm ▸ hd⟩
      · exact absurd (hid ▸ rfl) hremove
      · exact ⟨d', by rw [h, get?_put, if_pos (hid'.trans hid.symm)]⟩
    · exact ⟨d, (get?_call_of_target hk hc hid).trans hd⟩
  | none =>
    cases c with
    | openOutbound counterparty now =>
      rw [call]
      rcases t.openOutbound_cases counterparty now with ⟨a, ho⟩ | ⟨id', a, hn, ho⟩ <;> rw [ho]
      · exact ⟨d, hd⟩
      · by_cases hid : id' = id
        · exact ⟨_, (get?_put ..).trans (if_pos hid)⟩
        · exact ⟨d, (get?_put ..).trans ((if_neg hid).trans hd)⟩
    | sweep now => exact absurd rfl (hsweep now)
    | _ => cases hc

theorem timeOut?_of_isClosed (hc : d.isClosed) (l : Limits) (now : Millis) : timeOut? l now d = none := by
  simp [timeOut?, Dialogue.isIdle, hc]

theorem swept_of_isClosed (hc : d.isClosed) (l : Limits) (now : Millis) :
    swept l now d = if d.isExpired now l.keeping then none else some d := by
  rw [swept, timeOut?_of_isClosed hc]
  by_cases he : d.isExpired now l.keeping <;> simp [he, Option.filter]

theorem isExpired_iff (h : d.closedAt = some time) (window : Millis) :
    d.isExpired now window ↔ window ≤ now - time := by
  rw [Dialogue.isExpired, h, decide_eq_true_iff]

/-- A call keeps a closed dialogue as it is, unless it removes it or is a sweep late enough. -/
theorem get?_call_of_isClosed (hk : t.Keyed) (hd : t.get? id = some d) (hc : d.isClosed)
    (htime : d.closedAt = some time) (hremove : c ≠ .remove id)
    (hsweep : ∀ now, c = .sweep now → now - time < t.limits.keeping) : (t.call c).get? id = some d := by
  by_cases hs : ∃ now, c = .sweep now
  · obtain ⟨now, rfl⟩ := hs
    have hkept : ¬ d.isExpired now t.limits.keeping :=
      mt (isExpired_iff htime _).1 (Int.not_le.2 (hsweep now rfl))
    rw [call, get?_sweep, hd]
    exact (swept_of_isClosed hc ..).trans (if_neg hkept)
  · obtain ⟨d', hd'⟩ := held_call hk hd hremove fun now he => hs ⟨now, he⟩
    rcases (t.becomes_call c).entry hk hd' with ⟨d₀, cs, hd₀, rfl⟩ | ⟨_, _, _, _, hn, -⟩
    · obtain rfl : d = d₀ := Option.some.inj (hd.symm.trans hd₀)
      rw [hd', d.run_of_isClosed hc]
    · rw [hd] at hn
      cases hn

theorem get?_run_of_isClosed (hk : t.Keyed) (hd : t.get? id = some d) (hc : d.isClosed)
    (htime : d.closedAt = some time) {cs : List Call} (hremove : .remove id ∉ cs)
    (hsweep : ∀ now, .sweep now ∈ cs → now - time < t.limits.keeping) : (t.run cs).get? id = some d := by
  induction cs generalizing t with
  | nil => exact hd
  | cons c cs ih =>
    rw [List.mem_cons, not_or] at hremove
    refine ih (hk.call c) (get?_call_of_isClosed hk hd hc htime (Ne.symm hremove.1) fun now he => ?_)
      hremove.2 fun now hm => ?_
    · exact hsweep now (he ▸ List.mem_cons_self)
    · exact (t.becomes_call c).limits ▸ hsweep now (List.mem_cons_of_mem c hm)

/-! ### Behind the retention window -/

/-- A call and its answer by which a dialogue begins, or is found to have begun. -/
def Opens (id : DialogueId) : Call × Answer → Prop
  | (.createOrGet id' _ _ _ _, .dialogue (.ok _)) => id' = id
  | (.openOutbound _ _, .number (.ok id')) => id' = id
  | (.receive m _ _, .dialogue (.ok _)) => m.dialogue = id
  | _ => False

/-- A sweep late enough removes a closed dialogue. -/
theorem evicted_of_isClosed (hd : t.get? id = some d) (hc : d.isClosed) (htime : d.closedAt = some time)
    (hlate : t.limits.keeping ≤ now - time) :
    id ∈ (t.sweep now).1.evicted ∧ (t.sweep now).2.get? id = none := by
  have hexpired : d.isExpired now t.limits.keeping := (isExpired_iff htime _).2 hlate
  constructor
  · refine SortedMap.mem_keys_iff.2 ⟨d, ?_⟩
    have hd : t.dialogues.get? id = some d := hd
    rw [SortedMap.get?_filter, SortedMap.get?_map, hd]
    simp [timeOut?_of_isClosed hc, hexpired, Option.filter]
  · rw [get?_sweep, hd]
    exact (swept_of_isClosed hc ..).trans (if_pos hexpired)

/-- What is not held is not held behind a call that does not open it. -/
theorem get?_call_of_none (hk : t.Keyed) (hn : t.get? id = none) (hopen : ¬ Opens id (c, t.answer c)) :
    (t.call c).get? id = none := by
  have hother : ∀ id', c.target? = some id' → id ≠ id' → (t.call c).get? id = none :=
    fun id' hc hne => (get?_call_of_target hk hc hne).trans hn
  cases c with
  | createOrGet id' counterparty role now calls =>
    by_cases hid : id = id'
    · subst hid
      cases hr : t.createOrGet id counterparty role now with
      | error f => simpa [call, hr] using hn
      | ok r => exact absurd (by simp [answer, hr, Except.map, Opens]) hopen
    · exact hother id' rfl hid
  | openOutbound counterparty now =>
    rw [call]
    rcases t.openOutbound_cases counterparty now with ⟨a, ho⟩ | ⟨id', a, -, ho⟩
    · rw [ho]
      exact hn
    · have hid : id' ≠ id := fun hid => hopen (by simp [answer, ho, Opens, hid])
      rw [ho]
      exact (get?_put ..).trans ((if_neg hid).trans hn)
  | receive m route now =>
    by_cases hid : id = m.dialogue
    · subst hid
      cases hr : t.receive m route now with
      | error f => simpa [call, hr, behind] using hn
      | ok r => exact absurd (by simp [answer, hr, Except.map, Opens]) hopen
    · exact hother _ rfl hid
  | send id' step home now =>
    by_cases hid : id = id'
    · subst hid
      simp [call, send, get, hn, bind, Except.bind, behind]
    · exact hother id' rfl hid
  | apply id' event now =>
    by_cases hid : id = id'
    · subst hid
      simp [call, apply, get, hn, bind, Except.bind, behind]
    · exact hother id' rfl hid
  | remove id' => exact (get?_remove ..).trans (by split <;> simp [hn])
  | sweep now => rw [call, get?_sweep, hn]; rfl

theorem get?_run_of_none (hk : t.Keyed) (hn : t.get? id = none) {cs : List Call}
    (hopen : ∀ p ∈ t.log cs, ¬ Opens id p) : (t.run cs).get? id = none := by
  induction cs generalizing t with
  | nil => exact hn
  | cons c cs ih =>
    exact ih (hk.call c) (get?_call_of_none hk hn (hopen _ List.mem_cons_self))
      fun p hp => hopen p (List.mem_cons_of_mem _ hp)

/-- RETENTION: in every table that comes about by its operations, a dialogue that was closed at a time
    stays held just as it is through all calls that do not remove it and sweep before the retention
    window is over. All along, every message with its number is refused, and so is every step in it; it
    can be called off, to no effect; and no dialogue is opened under its number. A sweep when the window
    is over reports it gone and removes it, and from then on a message with its number that cannot open
    a dialogue is refused as unknown, until its number is opened again. -/
theorem closed_dialogue_kept (ht : t.Reachable) (hd : t.get? id = some d) (htime : d.closedAt = some time)
    (cs : List Call) (hremove : .remove id ∉ cs)
    (hsweep : ∀ now, .sweep now ∈ cs → now - time < t.limits.keeping) :
    let t' := t.run cs
    t'.Keeps id d ∧
    ∀ now, t.limits.keeping ≤ now - time →
      id ∈ (t'.sweep now).1.evicted ∧
      ∀ cs', (∀ p ∈ (t'.sweep now).2.log cs', ¬ Opens id p) →
        ((t'.sweep now).2.run cs').get? id = none ∧
        ∀ m route now', m.dialogue = id → ¬ m.body.step.opens →
          ((t'.sweep now).2.run cs').receive m route now' = .error (.unknownDialogue id) := by
  intro t'
  have hc : d.isClosed := by
    obtain ⟨limits, start, calls, rfl⟩ := ht
    have hcoherent := ((wellKept_new limits start).run calls).coherent id d hd
    exact hcoherent.closed_iff.2 (by simp [htime])
  have hk : t'.Keyed := ht.keyed.run cs
  have hd' : t'.get? id = some d := get?_run_of_isClosed ht.keyed hd hc htime hremove hsweep
  refine ⟨keeps_of_isClosed hk hd' hc, fun now hlate => ?_⟩
  obtain ⟨hevicted, hgone⟩ := evicted_of_isClosed hd' hc htime ((limits_run t cs).symm ▸ hlate)
  refine ⟨hevicted, fun cs' hopen => ?_⟩
  have hn := get?_run_of_none (hk.call (.sweep now)) hgone hopen
  refine ⟨hn, ?_⟩
  rintro m route now' rfl hstep
  exact (answersUnheld hn route now').unknown.2 (mt opens_iff.2 hstep)

/-- A call that was called off is refused when it comes again, and is unknown a minute later. -/
theorem repeated_call_refused :
    let call : Message :=
      { answer := 1, dialogue := 7, origin := .ofKey "bob", target := 0, body := .cfp .nothing }
    let late : Message := { call with answer := 3, target := 2, body := .decline }
    let route := call.route (.ofKey "alice")
    let t := (new {} 1).run [.receive call route 0, .apply 7 .cancel 5]
    let t' := t.run [.receive call route 6, .apply 7 .cancel 7, .sweep 8]
    (∃ f, t'.receive call route 9 = .error f) ∧
    t'.apply 7 .cancel 9 = .ok (.closed .aborted, t') ∧
    (t'.sweep 60005).2.receive late route 60006 = .error (.unknownDialogue 7) := by
  intro call late route t t'
  obtain ⟨d, hd, htime, hstate⟩ :
      ∃ d, t.get? 7 = some d ∧ d.closedAt = some 5 ∧ d.state = .closed .aborted := ⟨_, rfl, rfl, rfl⟩
  obtain ⟨hkeeps, hgone⟩ := closed_dialogue_kept (t := t) ⟨{}, 1, _, rfl⟩ hd htime
    [.receive call route 6, .apply 7 .cancel 7, .sweep 8] (by simp)
    (by
      intro now hm
      obtain rfl : now = 8 := by simpa using hm
      decide)
  obtain ⟨-, hgone⟩ := hgone 60005 (by decide)
  obtain ⟨-, hunknown⟩ := hgone [] (by simp [log])
  exact ⟨hkeeps.receive_error call route 9 rfl, hstate ▸ hkeeps.cancel_ok 9,
    hunknown late route 60006 rfl (by decide)⟩

end Table

end Negotiation
