import Negotiation.Proofs.Parley

/-!
Agreement over a network that loses, repeats and reorders messages. The numbers of the steps keep the
two sides in line: each side's last number tells its state, and each message tells by its numbers in
which state it was sent. So a side is never taken by an old message for where it was before. Main
statement (`accepted_by_agreement`): no step of a negotiation is sent twice, and behind an acceptance
stand the other side's acceptance, its proposal and the delivery of both, in their order.
-/

namespace Negotiation

/-- How far a negotiation has come. -/
def State.rank : State → Nat
  | .idle => 0
  | .cfpSent => 1
  | .cfpReceived => 1
  | .proposalSent => 2
  | .proposalReceived => 2
  | .accepted => 3
  | .messaging => 3
  | .closed _ => 4

/-- How far a negotiation has come behind a step that leads on. -/
def Step.rank? : Step → Option Nat
  | .cfp => some 1
  | .propose => some 2
  | .accept => some 3
  | .decline => none
  | .message => none

theorem State.rank_le {s s' : State} {t : Transition} (h : s.next? t = some s') : s.rank ≤ s'.rank := by
  cases t with
  | step step dir =>
    rcases next?_step_cases h with ⟨rfl, -, -, rfl⟩ | ⟨rfl, -, -, rfl⟩ | ⟨rfl, -, -, rfl⟩ |
      ⟨rfl, -, -, rfl⟩ | ⟨rfl, -, -, rfl⟩ | ⟨rfl, -, -, rfl⟩ | ⟨rfl | rfl | rfl | rfl, -, rfl⟩ |
      ⟨rfl, -, rfl⟩ | ⟨rfl | rfl, -, rfl⟩ <;> simp [rank]
  | complete => cases s <;> simp [next?] at h <;> subst h <;> simp [rank]
  | cancel => cases s <;> simp [next?] at h <;> subst h <;> simp [rank]
  | dialogueError => cases s <;> simp [next?] at h <;> subst h <;> simp [rank]
  | timeout => cases s <;> simp [next?] at h <;> subst h <;> simp [rank]

/-- A step that leads on is taken from below its rank only. -/
theorem State.rank_lt {s s' : State} {step : Step} {dir : Direction} {k : Nat}
    (h : s.next? (.step step dir) = some s') (hk : step.rank? = some k) : s.rank < k ∧ s'.rank = k := by
  rcases next?_step_cases h with ⟨rfl, rfl, -, rfl⟩ | ⟨rfl, rfl, -, rfl⟩ | ⟨rfl, rfl, -, rfl⟩ |
    ⟨rfl, rfl, -, rfl⟩ | ⟨rfl, rfl, -, rfl⟩ | ⟨rfl, rfl, -, rfl⟩ | ⟨-, rfl, -⟩ | ⟨-, rfl, -⟩ | ⟨-, rfl, -⟩ <;>
    simp [Step.rank?] at hk <;> subst hk <;> simp [rank]

/-- An acceptance is sent for a proposal received, and received for a proposal sent. -/
theorem State.accepted_cases {s : State} {step : Step} {dir : Direction}
    (h : s.next? (.step step dir) = some .accepted) (hne : s ≠ .accepted) :
    step = .accept ∧ (s = .proposalReceived ∧ dir = .outbound ∨ s = .proposalSent ∧ dir = .inbound) := by
  cases s <;> cases step <;> cases dir <;> simp_all [next?, afterStep?]

/-- A proposal is sent for a call received, and received for a call sent. -/
theorem State.propose_cases {s s' : State} {step : Step} {dir : Direction}
    (h : s.next? (.step step dir) = some s') (hs : step = .propose ∨ s' = .proposalReceived) :
    step = .propose ∧ (s = .cfpReceived ∧ dir = .outbound ∧ s' = .proposalSent ∨
      s = .cfpSent ∧ dir = .inbound ∧ s' = .proposalReceived) := by
  cases s <;> cases step <;> cases dir <;> simp [next?, afterStep?] at h <;> subst h <;> simp at hs ⊢

namespace Parley

/-! ### States, numbers and messages -/

/-- The last number of a side in each of its states; the responder is called, the initiator calls. -/
def Placed : Role → State → AnswerId → Prop
  | .initiator, .cfpSent, a => a = 1
  | .responder, .cfpReceived, a => a = 1
  | .initiator, .proposalReceived, a => a = 2
  | .responder, .proposalSent, a => a = 2
  | _, .accepted, a => 3 ≤ a
  | _, .closed _, _ => True
  | _, _, _ => False

/-- The numbers of the steps that a side sends. -/
def Numbered : Role → Step → AnswerId → AnswerId → Prop
  | .initiator, .cfp, answer, target => answer = 1 ∧ target = 0
  | .responder, .propose, answer, target => answer = 2 ∧ target = 1
  | .initiator, .accept, answer, target => answer = 3 ∧ target = 2
  | _, .decline, _, target => target = 1 ∨ target = 2
  | _, .message, _, target => 3 ≤ target
  | _, _, _, _ => False

/-- A message that a side sends. -/
def Fits (r : Role) (m : Outgoing) : Prop := Numbered r m.body.step m.answer m.target

/-- A step that is sent has the numbers of its state, and leads to a state with its number. -/
theorem Placed.sent {r : Role} {s s' : State} {a : AnswerId} {step : Step} (h : Placed r s a)
    (hs : s.next? (.send step) = some s') :
    Numbered r step (AnswerId.next a) a ∧ Placed r s' (AnswerId.next a) := by
  rcases State.next?_step_cases hs with ⟨rfl, -⟩ | ⟨rfl, -⟩ | ⟨rfl, rfl, -, rfl⟩ | ⟨-, -, hdir, -⟩ |
    ⟨rfl, rfl, -, rfl⟩ | ⟨-, -, hdir, -⟩ | ⟨hfrom, rfl, rfl⟩ | ⟨rfl, rfl, rfl⟩ | ⟨rfl | rfl, rfl, rfl⟩
  · cases r <;> cases h
  · cases r <;> cases h
  · cases r with
    | initiator => cases h
    | responder =>
      obtain rfl : a = 1 := h
      exact ⟨⟨rfl, rfl⟩, rfl⟩
  · cases hdir
  · cases r with
    | initiator =>
      obtain rfl : a = 2 := h
      exact ⟨⟨rfl, rfl⟩, UInt32.le_refl 3⟩
    | responder => cases h
  · cases hdir
  · -- a decline, from one of the four states before the acceptance
    have ha : a = 1 ∨ a = 2 := by
      rcases hfrom with rfl | rfl | rfl | rfl <;> cases r <;> first | exact .inl h | exact .inr h | cases h
    cases r <;> exact ⟨ha, trivial⟩
  · have ha : 3 ≤ a := by cases r <;> exact h
    cases r <;> exact ⟨ha, UInt32.le_trans ha (AnswerId.le_next a)⟩
  · cases r <;> cases h
  · cases r <;> cases h

/-- A message of the other side that answers the last number is of the state that is due. -/
theorem Placed.received {r : Role} {s s' : State} {a answer : AnswerId} {step : Step} (h : Placed r s a)
    (hm : Numbered r.other step answer a) (hlt : a < answer)
    (hs : s.next? (.receive step) = some s') : Placed r s' answer := by
  rcases State.next?_step_cases hs with ⟨-, -, hdir, -⟩ | ⟨rfl, -⟩ | ⟨-, -, hdir, -⟩ | ⟨rfl, rfl, -, rfl⟩ |
    ⟨-, -, hdir, -⟩ | ⟨rfl, rfl, -, rfl⟩ | ⟨-, rfl, rfl⟩ | ⟨rfl, rfl, rfl⟩ | ⟨rfl | rfl, rfl, rfl⟩
  · cases hdir
  · cases r <;> cases h
  · cases hdir
  · cases r with
    | initiator => exact hm.1
    | responder => cases h
  · cases hdir
  · cases r with
    | initiator => cases h
    | responder => exact hm.1 ▸ UInt32.le_refl 3
  · cases r <;> trivial
  · have ha : 3 ≤ a := by cases r <;> exact h
    cases r <;> exact UInt32.le_trans ha (UInt32.le_of_lt hlt)
  · cases r <;> cases h
  · cases r <;> cases h

/-- What opens a dialogue on the responder's side is the call for proposals. -/
theorem Placed.called {s : State} {answer : AnswerId} {step : Step}
    (hm : Numbered .initiator step answer 0) (hs : State.idle.next? (.receive step) = some s) :
    Placed .responder s answer ∧ step = .cfp := by
  cases step with
  | cfp =>
    obtain rfl : State.cfpReceived = s := Option.some.inj hs
    exact ⟨hm.1, rfl⟩
  | propose => cases hm
  | accept => cases hs
  | decline => cases hs
  | message => exact absurd (show (3 : AnswerId) ≤ 0 from hm) (by decide)

/-! ### One side -/

/-- How often a side has sent a step. -/
def count (ws : List Outgoing) (step : Step) : Nat := ws.countP (·.body.step = step)

/-- A side's dialogue and its messages: number and state fit, the messages fit, and no step that leads
on has been sent twice, or before its time. -/
structure Standing (r : Role) (peer : String) (ws : List Outgoing) (d : Dialogue) : Prop where
  counterparty : d.counterparty.key = peer
  placed : Placed r d.state d.lastAnswer
  fits : ∀ m ∈ ws, Fits r m
  once : ∀ step k, step.rank? = some k → count ws step ≤ if k ≤ d.state.rank then 1 else 0

namespace Standing

variable {r : Role} {peer : String} {ws ws' : List Outgoing} {d d' : Dialogue} {now : Millis}

/-- Nothing is sent and the state goes on: the counts stay in their bounds. -/
theorem once_of_rank_le (h : Standing r peer ws d) {s : State} (hle : d.state.rank ≤ s.rank)
    (step : Step) (k : Nat) (hk : step.rank? = some k) : count ws step ≤ if k ≤ s.rank then 1 else 0 := by
  have := h.once step k hk
  split at this <;> split <;> omega

theorem sent (h : Standing r peer ws d) {id : DialogueId} {home : Address} {body : Body} {s : State}
    (hs : d.state.next? (.send body.step) = some s)
    (hw : ws' = ws ∨ ws' = ws ++ [Engine.outgoing id (d.stamp home) body]) :
    Standing r peer ws' (d.sent now s) := by
  obtain ⟨hfit, hplaced⟩ := h.placed.sent hs
  have hle : d.state.rank ≤ s.rank := State.rank_le hs
  refine ⟨h.counterparty, hplaced, ?_, ?_⟩
  · rcases hw with rfl | rfl
    · exact h.fits
    · intro m hm
      rcases List.mem_append.1 hm with hm | hm
      · exact h.fits m hm
      · obtain rfl := List.mem_singleton.1 hm
        exact hfit
  · intro step k hk
    rcases hw with rfl | rfl
    · exact h.once_of_rank_le hle step k hk
    · rw [count, List.countP_append, List.countP_singleton]
      change count ws step + (if decide (body.step = step) then 1 else 0) ≤ if k ≤ s.rank then 1 else 0
      by_cases hb : body.step = step
      · -- the step is sent now, so it had not been sent before
        obtain ⟨hlt, heq⟩ := State.rank_lt hs (hb ▸ hk)
        have := h.once step k hk
        rw [if_neg (by omega)] at this
        rw [if_pos (decide_eq_true hb), if_pos (by omega)]
        omega
      · rw [if_neg (by simpa using hb)]
        exact h.once_of_rank_le hle step k hk

theorem received (h : Standing r peer ws d) {m : Outgoing} {sender : Address} {route : Route} {s : State}
    (hm : Fits r.other m) (hx : d.Expects (m.delivered sender))
    (hs : d.state.next? (.receive m.body.step) = some s) :
    Standing r peer ws (d.received (m.delivered sender) route now s) where
  counterparty := h.counterparty
  placed := by
    have hm : Numbered r.other m.body.step m.answer d.lastAnswer := hx.2.1 ▸ hm
    exact h.placed.received hm hx.2.2 hs
  fits := h.fits
  once := h.once_of_rank_le (State.rank_le hs)

theorem closed (h : Standing r peer ws d) {t : Transition} (ht : ∀ step dir, t ≠ .step step dir)
    (ha : d.apply t now = .ok d') : Standing r peer ws d' := by
  obtain ⟨s, hs, hd'⟩ := Dialogue.apply_eq_ok_iff.1 ha
  obtain ⟨reason, rfl⟩ := State.closed_of_lifecycle ht hs
  have hstate : d'.state = .closed reason := by rw [hd']; split <;> rfl
  have hpeer : d'.counterparty = d.counterparty := by rw [hd']; split <;> rfl
  refine ⟨hpeer ▸ h.counterparty, ?_, h.fits, h.once_of_rank_le (hstate ▸ State.rank_le hs)⟩
  rw [hstate]
  cases r <;> trivial

end Standing

/-! ### Both sides -/

/-- The initiator holds its dialogue; the responder holds one with the initiator, or has not said
anything yet. -/
structure Sound (p : Parley) (id : DialogueId) : Prop where
  caller : ∃ d, p.entry .initiator id = some d ∧
    Standing .initiator (p.home .responder).key (p.words .initiator id) d
  called : p.entry .responder id = none ∧ p.words .responder id = [] ∨
    ∃ d, p.entry .responder id = some d ∧
      Standing .responder (p.home .initiator).key (p.words .responder id) d

/-- An event that evicts no dialogue of a number, and behind which the number belongs to the initiator's
dialogue on the responder's side too. -/
structure Undisturbed (id : DialogueId) (p p' : Parley) : Prop where
  kept : ∀ r, (p.entry r id).isSome → (p'.entry r id).isSome
  called : ∀ d, p'.entry .responder id = some d →
    d.role = .responder ∧ d.counterparty.key = (p.home .initiator).key

instance (id : DialogueId) (p p' : Parley) : Decidable (Undisturbed id p p') :=
  decidable_of_iff ((∀ r ∈ [Role.initiator, .responder], (p.entry r id).isSome → (p'.entry r id).isSome) ∧
      ∀ d ∈ p'.entry .responder id, d.role = .responder ∧ d.counterparty.key = (p.home .initiator).key)
    ⟨fun h => ⟨fun r => h.1 r (by cases r <;> simp), h.2⟩, fun h => ⟨fun r _ => h.kept r, h.called⟩⟩

namespace Sound

variable {p p' : Parley} {id : DialogueId} {r : Role} {now : Millis} {e : Event}

theorem standing (h : Sound p id) {d : Dialogue} (hd : p.entry r id = some d) :
    Standing r (p.home r.other).key (p.words r id) d := by
  cases r with
  | initiator =>
    obtain ⟨d', hd', hs⟩ := h.caller
    exact Option.some.inj (hd'.symm.trans hd) ▸ hs
  | responder =>
    rcases h.called with ⟨hn, -⟩ | ⟨d', hd', hs⟩
    · exact absurd (hn.symm.trans hd) (by simp)
    · exact Option.some.inj (hd'.symm.trans hd) ▸ hs

theorem silent (h : Sound p id) (hn : p.entry r id = none) : r = .responder ∧ p.words r id = [] := by
  cases r with
  | initiator =>
    obtain ⟨d, hd, -⟩ := h.caller
    exact absurd (hn.symm.trans hd) (by simp)
  | responder =>
    rcases h.called with ⟨-, hw⟩ | ⟨d, hd, -⟩
    · exact ⟨rfl, hw⟩
    · exact absurd (hn.symm.trans hd) (by simp)

theorem fits (h : Sound p id) (r : Role) {m : Outgoing} (hm : m ∈ p.words r id) : Fits r m := by
  cases hd : p.entry r id with
  | none => exact absurd hm ((h.silent hd).2 ▸ List.not_mem_nil)
  | some d => exact (h.standing hd).fits m hm

theorem count_le_one (h : Sound p id) (r : Role) {step : Step} {k : Nat} (hk : step.rank? = some k) :
    count (p.words r id) step ≤ 1 := by
  cases hd : p.entry r id with
  | none =>
    rw [(h.silent hd).2]
    exact Nat.zero_le 1
  | some d =>
    have := (h.standing hd).once step k hk
    split at this <;> omega

theorem count_eq_zero (h : Sound p id) (r : Role) {step : Step}
    (hs : ∀ answer target, ¬ Numbered r step answer target) : count (p.words r id) step = 0 := by
  rw [count, List.countP_eq_zero]
  intro m hm hstep
  have hfit := h.fits r hm
  rw [Fits, of_decide_eq_true hstep] at hfit
  exact hs _ _ hfit

/-- Nobody else is taken for a side's counterparty. -/
theorem not_met (h : Sound p id) (hu : Undisturbed id p p') {m : Message} {d' : Dialogue}
    (hid : m.dialogue = id) (hm : ¬ m.origin.sameAgent (p.home r.other))
    (hr : ((p.engine r).found m now).receive m (m.route (p.home r)) now = .ok d')
    (he : p'.entry r id = some d') : False := by
  obtain ⟨hx, s, -, rfl⟩ := Dialogue.receive_eq_ok_iff.1 hr
  refine hm (decide_eq_true ?_)
  have ho : m.origin.key = ((p.engine r).found m now).counterparty.key := of_decide_eq_true hx.1
  rw [ho]
  cases hd : p.entry r id with
  | some d =>
    rw [Engine.found, hid, show (p.engine r).table.get? id = some d from hd]
    exact (h.standing hd).counterparty
  | none =>
    obtain ⟨rfl, -⟩ := h.silent hd
    exact (hu.called _ he).2

/-- The dialogue that takes a message of the other side: the one of the number, or a new one for the
call that opens it. -/
inductive Hears (p : Parley) (r : Role) (id : DialogueId) (m : Outgoing) (d' : Dialogue) : Prop
  | held (d : Dialogue) (s : State) (hd : p.entry r id = some d)
      (hs : d.state.next? (.receive m.body.step) = some s) (hst : d'.state = s)
  | called (hn : p.entry r id = none) (hst : d'.state = .cfpReceived)

theorem hears (h : Sound p id) {m : Outgoing} {d' : Dialogue} (hm : m ∈ p.words r.other id)
    (hr : ((p.engine r).found (m.delivered (p.home r.other)) now).receive
      (m.delivered (p.home r.other)) ((m.delivered (p.home r.other)).route (p.home r)) now = .ok d') :
    Hears p r id m d' ∧ Standing r (p.home r.other).key (p.words r id) d' := by
  obtain ⟨hx, s, hs, rfl⟩ := Dialogue.receive_eq_ok_iff.1 hr
  have hid : m.dialogue = id := of_decide_eq_true (List.mem_filter.1 hm).2
  have hfit : Fits r.other m := h.fits r.other hm
  rw [Engine.found, show (m.delivered (p.home r.other)).dialogue = id from hid] at hx hs ⊢
  cases hd : p.entry r id with
  | some d =>
    rw [show (p.engine r).table.get? id = some d from hd] at hx hs ⊢
    exact ⟨.held d s hd hs rfl, (h.standing hd).received hfit hx hs⟩
  | none =>
    obtain ⟨rfl, hw⟩ := h.silent hd
    rw [show (p.engine .responder).table.get? id = none from hd] at hx hs ⊢
    have htarget : m.target = 0 := hx.2.1
    have hnum : Numbered .initiator m.body.step m.answer 0 := htarget ▸ hfit
    obtain ⟨hplaced, hstep⟩ := Placed.called hnum hs
    have hsc : s = .cfpReceived := by
      rw [show (m.delivered (p.home Role.responder.other)).body.step = .cfp from hstep] at hs
      exact (Option.some.inj hs).symm
    refine ⟨.called hd hsc, Outgoing.key_originFor .., hplaced, ?_, ?_⟩
    · rw [hw]
      exact fun _ h => absurd h List.not_mem_nil
    · intro step k _
      rw [hw]
      exact Nat.zero_le _

/-- What an event does to an undisturbed dialogue on one side: nothing, or a step or an event of the
dialogue that the side holds, or the call that opens it. -/
theorem turn_cases (h : Sound p id) (hu : Undisturbed id p p') (ht : p.Turn r id now e p') :
    (p'.entry r id = p.entry r id ∧ p'.words r id = p.words r id) ∨
    (∃ d body s, p.entry r id = some d ∧ d.state.next? (.send body.step) = some s ∧
      p'.entry r id = some (d.sent now s) ∧ (p'.words r id = p.words r id ∨
        p'.words r id = p.words r id ++ [Engine.outgoing id (d.stamp (p.home r)) body])) ∨
    (∃ m d', e = .deliver r.other m ∧ m ∈ p.words r.other id ∧ Hears p r id m d' ∧
      Standing r (p.home r.other).key (p.words r id) d' ∧
      p'.entry r id = some d' ∧ p'.words r id = p.words r id) ∨
    ∃ d d' t, (∀ step dir, t ≠ .step step dir) ∧ p.entry r id = some d ∧ d.apply t now = .ok d' ∧
      p'.entry r id = some d' ∧ p'.words r id = p.words r id := by
  cases ht with
  | still he hw => exact .inl ⟨he, hw⟩
  | begun peer body s hd hs he =>
    obtain ⟨rfl, -⟩ := h.silent hd
    exact absurd (hu.called _ he).1 (by simp [Dialogue.sent, Dialogue.new])
  | answered d body s hd hs he hw => exact .inr (.inl ⟨d, body, s, hd, hs, he, hw⟩)
  | heard m d' hev hm hr he hw =>
    obtain ⟨hh, hst⟩ := h.hears hm hr
    exact .inr (.inr (.inl ⟨m, d', hev, hm, hh, hst, he, hw⟩))
  | met m d' hid hm hr he => exact (h.not_met hu hid hm hr he).elim
  | closed d d' t ht hd ha he hw => exact .inr (.inr (.inr ⟨d, d', t, ht, hd, ha, he, hw⟩))
  | gone hd he =>
    have := hu.kept r hd
    rw [he] at this
    cases this

/-- One side stays sound, and the other is as it was. -/
theorem turn (h : Sound p id) (hu : Undisturbed id p p') (ht : p.Turn r id now e p')
    (hhome : ∀ r, p'.home r = p.home r) (he : p'.entry r.other id = p.entry r.other id)
    (hw : p'.words r.other id = p.words r.other id) : Sound p' id := by
  have hside : (p'.entry r id = none ∧ p.entry r id = none ∧ p'.words r id = p.words r id) ∨
      ∃ d, p'.entry r id = some d ∧ Standing r (p.home r.other).key (p'.words r id) d := by
    rcases h.turn_cases hu ht with ⟨he, hw⟩ | ⟨d, body, s, hd, hs, he, hw⟩ | ⟨m, d', -, -, -, hst, he, hw⟩ |
      ⟨d, d', t, ht, hd, ha, he, hw⟩
    · cases hd : p.entry r id with
      | none => exact .inl ⟨he.trans hd, rfl, hw⟩
      | some d => exact .inr ⟨d, he.trans hd, hw ▸ h.standing hd⟩
    · exact .inr ⟨_, he, (h.standing hd).sent hs hw⟩
    · exact .inr ⟨d', he, hw ▸ hst⟩
    · exact .inr ⟨d', he, hw ▸ (h.standing hd).closed ht ha⟩
  cases r with
  | initiator =>
    refine ⟨?_, ?_⟩
    · rcases hside with ⟨-, hn, -⟩ | hst
      · exact absurd (h.silent hn).1 (by simp)
      · exact hhome .responder ▸ hst
    · rw [hhome, show p'.entry .responder id = _ from he, show p'.words .responder id = _ from hw]
      exact h.called
  | responder =>
    refine ⟨?_, ?_⟩
    · rw [hhome, show p'.entry .initiator id = _ from he, show p'.words .initiator id = _ from hw]
      exact h.caller
    · rcases hside with ⟨hn', hn, hw'⟩ | hst
      · exact .inl ⟨hn', hw'.trans (h.silent hn).2⟩
      · exact .inr (hhome .initiator ▸ hst)

theorem step (h : Sound p id) (hk : ∀ r, (p.engine r).Holds fun _ => True) {e : Millis × Event}
    (hu : Undisturbed id p (p.step e.1 e.2)) : Sound (p.step e.1 e.2) id := by
  obtain ⟨ht, he, hw⟩ := step_turn hk id e.1 e.2
  exact h.turn hu ht (p.step_home e.1 e.2) he hw

theorem run (h : Sound p id) (hk : ∀ r, (p.engine r).Holds fun _ => True)
    {es : List (Millis × Event)}
    (hu : ∀ pre e, pre ++ [e] <+: es → Undisturbed id (p.run pre) (p.run (pre ++ [e]))) :
    Sound (p.run es) id := by
  induction es using List.reverseRecOn with
  | nil => exact h
  | append_singleton es e ih =>
    have hes : Sound (p.run es) id := ih fun pre e' hpre => hu pre e' (hpre.trans (List.prefix_append ..))
    have hlast := hu es e List.prefix_rfl
    rw [run_concat] at hlast ⊢
    exact hes.step (run_holds hk es) hlast

end Sound

/-! ### Moments -/

/-- Where a side stands in its dialogue. -/
def state? (p : Parley) (r : Role) (id : DialogueId) : Option State := (p.entry r id).map (·.state)

/-- A side comes into a state. -/
def Enters (id : DialogueId) (p p' : Parley) (r : Role) (s : State) : Prop :=
  p.state? r id ≠ some s ∧ p'.state? r id = some s

/-- A side says something. -/
def Says (id : DialogueId) (p p' : Parley) (r : Role) (m : Outgoing) : Prop :=
  m ∉ p.words r id ∧ p'.words r id = p.words r id ++ [m]

namespace Sound

variable {p : Parley} {id : DialogueId} {r : Role} {e : Millis × Event} {m : Outgoing}

/-- A side comes into a state that is not closed by a step that it sends or hears. -/
theorem enters_cases (h : Sound p id) (hk : ∀ r, (p.engine r).Holds fun _ => True)
    (hu : Undisturbed id p (p.step e.1 e.2)) {s : State} (hen : Enters id p (p.step e.1 e.2) r s)
    (hs : s.isClosed = false) :
    (∃ d step, p.entry r id = some d ∧ d.state.next? (.send step) = some s ∧
      (p.step e.1 e.2).entry r id = some (d.sent e.1 s)) ∨
    ∃ m, e.2 = .deliver r.other m ∧ m ∈ p.words r.other id ∧
      ((∃ d, p.entry r id = some d ∧ d.state.next? (.receive m.body.step) = some s) ∨
        s = .cfpReceived) := by
  obtain ⟨hne, hst⟩ := hen
  obtain ⟨ht, he, -⟩ := step_turn hk id e.1 e.2
  by_cases hr : r = e.2.side
  · subst hr
    rcases h.turn_cases hu ht with ⟨he, -⟩ | ⟨d, body, s', hd, hs', he, -⟩ |
      ⟨m, d', hev, hm, hh, -, he, -⟩ | ⟨d, d', t, ht, hd, ha, he, -⟩ <;> rw [state?, he] at hst
    · exact absurd hst hne
    · obtain rfl : s' = s := Option.some.inj hst
      exact .inl ⟨d, body.step, hd, hs', he⟩
    · obtain rfl : d'.state = s := Option.some.inj hst
      refine .inr ⟨m, hev, hm, ?_⟩
      cases hh with
      | held d s hd hs' hd' => exact .inl ⟨d, hd, hd' ▸ hs'⟩
      | called hn hd' => exact .inr hd'
    · obtain rfl : d'.state = s := Option.some.inj hst
      obtain ⟨s', hs', hd'⟩ := Dialogue.apply_eq_ok_iff.1 ha
      obtain ⟨reason, rfl⟩ := State.closed_of_lifecycle ht hs'
      have hstate : d'.state = .closed reason := by rw [hd']; split <;> rfl
      rw [hstate] at hs
      cases hs
  · have hr : r = e.2.side.other := by
      revert hr
      cases r <;> cases e.2.side <;> simp [Role.other]
    rw [state?, hr, he, ← hr] at hst
    exact absurd hst hne

/-- What a side says belongs to the step that it takes. -/
theorem says_cases (h : Sound p id) (hk : ∀ r, (p.engine r).Holds fun _ => True)
    (hu : Undisturbed id p (p.step e.1 e.2)) (hn : m ∉ p.words r id)
    (hm : m ∈ (p.step e.1 e.2).words r id) :
    Says id p (p.step e.1 e.2) r m ∧ ∃ d s, p.entry r id = some d ∧
      d.state.next? (.send m.body.step) = some s ∧ (p.step e.1 e.2).entry r id = some (d.sent e.1 s) := by
  obtain ⟨ht, -, hw⟩ := step_turn hk id e.1 e.2
  by_cases hr : r = e.2.side
  · subst hr
    rcases h.turn_cases hu ht with ⟨-, hw⟩ | ⟨d, body, s, hd, hs, he, hw | hw⟩ |
      ⟨-, -, -, -, -, -, -, hw⟩ | ⟨-, -, -, -, -, -, -, hw⟩
    case inr.inl.inr =>
      have hm' := hm
      rw [hw, List.mem_append, List.mem_singleton] at hm'
      rcases hm' with hm' | rfl
      · exact absurd hm' hn
      · exact ⟨⟨hn, hw⟩, d, s, hd, hs, he⟩
    all_goals exact absurd (hw ▸ hm) hn
  · have hr : r = e.2.side.other := by
      revert hr
      cases r <;> cases e.2.side <;> simp [Role.other]
    rw [hr, hw, ← hr] at hm
    exact absurd hm hn

theorem state?_ne {d : Dialogue} {s : State} (hd : p.entry r id = some d)
    (hne : p.state? r id ≠ some s) : d.state ≠ s :=
  fun h => hne (by rw [state?, hd, Option.map_some, h])

/-- The initiator accepts what it holds a proposal for, and the acceptance has the number 3. -/
theorem accepts (h : Sound p id) (hk : ∀ r, (p.engine r).Holds fun _ => True)
    (hu : Undisturbed id p (p.step e.1 e.2))
    (hen : Enters id p (p.step e.1 e.2) .initiator .accepted) :
    p.state? .initiator id = some .proposalReceived ∧
    ∃ d, (p.step e.1 e.2).entry .initiator id = some d ∧ d.lastAnswer = 3 := by
  rcases h.enters_cases hk hu hen rfl with ⟨d, step, hd, hs, he⟩ | ⟨m, -, hm, ⟨d, hd, hs⟩ | hs⟩
  · have hst : d.state = .proposalReceived := by
      obtain ⟨-, ⟨hst, -⟩ | ⟨-, hdir⟩⟩ := State.accepted_cases hs (state?_ne hd hen.1)
      · exact hst
      · cases hdir
    have hlast : d.lastAnswer = 2 := by
      have hpl := (h.standing hd).placed
      rwa [hst] at hpl
    refine ⟨by rw [state?, hd, Option.map_some, hst], _, he, ?_⟩
    change AnswerId.next d.lastAnswer = 3
    rw [hlast]
    rfl
  · -- the responder does not send acceptances
    obtain ⟨hstep, -⟩ := State.accepted_cases hs (state?_ne hd hen.1)
    have hfit := h.fits .responder hm
    rw [Fits, hstep] at hfit
    cases hfit
  · cases hs

/-- The initiator holds a proposal behind the delivery of one. -/
theorem learns (h : Sound p id) (hk : ∀ r, (p.engine r).Holds fun _ => True)
    (hu : Undisturbed id p (p.step e.1 e.2))
    (hen : Enters id p (p.step e.1 e.2) .initiator .proposalReceived) :
    ∃ m, e.2 = .deliver .responder m ∧ m ∈ p.words .responder id ∧ m.body.step = .propose := by
  rcases h.enters_cases hk hu hen rfl with ⟨d, step, hd, hs, he⟩ | ⟨m, hev, hm, ⟨d, hd, hs⟩ | hs⟩
  · obtain ⟨-, ⟨-, -, hs'⟩ | ⟨-, hdir, -⟩⟩ := State.propose_cases hs (.inr rfl)
    · cases hs'
    · cases hdir
  · exact ⟨m, hev, hm, (State.propose_cases hs (.inr rfl)).1⟩
  · cases hs

/-- The responder accepts behind the delivery of the initiator's acceptance. -/
theorem concludes (h : Sound p id) (hk : ∀ r, (p.engine r).Holds fun _ => True)
    (hu : Undisturbed id p (p.step e.1 e.2))
    (hen : Enters id p (p.step e.1 e.2) .responder .accepted) :
    ∃ m, e.2 = .deliver .initiator m ∧ m ∈ p.words .initiator id ∧ m.body.step = .accept ∧
      m.answer = 3 := by
  rcases h.enters_cases hk hu hen rfl with ⟨d, step, hd, hs, he⟩ | ⟨m, hev, hm, ⟨d, hd, hs⟩ | hs⟩
  · -- the responder does not hold proposals of the initiator
    obtain ⟨-, ⟨hst, -⟩ | ⟨-, hdir⟩⟩ := State.accepted_cases hs (state?_ne hd hen.1)
    · have hpl := (h.standing hd).placed
      rw [hst] at hpl
      cases hpl
    · cases hdir
  · obtain ⟨hstep, -⟩ := State.accepted_cases hs (state?_ne hd hen.1)
    have hfit := h.fits .initiator hm
    rw [Fits, hstep] at hfit
    exact ⟨m, hev, hm, hstep, hfit.1⟩
  · cases hs

/-- The responder says its proposal when it comes to have sent it. -/
theorem proposes (h : Sound p id) (hk : ∀ r, (p.engine r).Holds fun _ => True)
    (hu : Undisturbed id p (p.step e.1 e.2)) (hn : m ∉ p.words .responder id)
    (hm : m ∈ (p.step e.1 e.2).words .responder id) (hstep : m.body.step = .propose) :
    Says id p (p.step e.1 e.2) .responder m ∧
    Enters id p (p.step e.1 e.2) .responder .proposalSent := by
  obtain ⟨hsay, d, s, hd, hs, he⟩ := h.says_cases hk hu hn hm
  obtain ⟨-, ⟨hst, -, rfl⟩ | ⟨-, hdir, -⟩⟩ := State.propose_cases hs (.inl hstep)
  · refine ⟨hsay, ?_, by rw [state?, he]; rfl⟩
    rw [state?, hd, Option.map_some, hst]
    simp
  · cases hdir

/-- The initiator says its acceptance when it comes to accept. -/
theorem says_accept (h : Sound p id) (hk : ∀ r, (p.engine r).Holds fun _ => True)
    (hu : Undisturbed id p (p.step e.1 e.2)) (hn : m ∉ p.words .initiator id)
    (hm : m ∈ (p.step e.1 e.2).words .initiator id) (hstep : m.body.step = .accept) :
    Says id p (p.step e.1 e.2) .initiator m ∧
    Enters id p (p.step e.1 e.2) .initiator .accepted := by
  obtain ⟨hsay, d, s, hd, hs, he⟩ := h.says_cases hk hu hn hm
  obtain ⟨hlt, heq⟩ := State.rank_lt hs (k := 3) (hstep ▸ rfl)
  have hs' : s = .accepted := by
    rw [hstep] at hs
    revert hs
    cases d.state <;> simp [Transition.send, State.next?, State.afterStep?, eq_comm]
  refine ⟨hsay, ?_, by rw [state?, he, hs']; rfl⟩
  rw [state?, hd, Option.map_some]
  intro hst
  rw [Option.some.inj hst] at hlt
  exact absurd hlt (by decide)

end Sound

/-! ### The opening -/

/-- The caller opens under a number that nobody has used. -/
theorem opened {p : Parley} {id : DialogueId} {now : Millis} {peer : Address} {payload : Cfp}
    (hfree : ∀ r, p.entry r id = none ∧ p.words r id = [])
    (hopen : ((p.side .initiator).openDialogue (.keeping (.ok ())) now peer (.cfp payload)).1 = .ok id)
    (hpeer : peer.key = (p.home .responder).key) :
    let q := p.step now (.act .initiator (.cfp peer payload) (.ok ()))
    Sound q id ∧ q.state? .initiator id = some .cfpSent ∧ q.state? .responder id = none ∧
    count (q.words .initiator id) .accept = 0 ∧ q.words .responder id = [] := by
  intro q
  rcases (p.side .initiator).openDialogue_keeping (.ok ()) now peer (.cfp payload) with
    ⟨f, a, h⟩ | ⟨id', a, st, hn, hst, h⟩ <;> rw [h] at hopen
  · cases hopen
  · obtain rfl : id' = id := Except.ok.inj hopen
    obtain rfl : State.cfpSent = st := Option.some.inj hst
    have hq : q = p.put .initiator ⟨_, _⟩ := congrArg (fun r => p.put .initiator (Linked.done r).2) h
    have hentry : q.entry .initiator id' =
        some ((Dialogue.new id' peer .initiator now).sent now .cfpSent) := by
      rw [hq, put_entry, Engine.get?_put]
      exact if_pos rfl
    have hwords : q.words .initiator id' = [Engine.outgoing id'
        ((Dialogue.new id' peer .initiator now).stamp (p.home .initiator)) (.cfp payload)] := by
      rw [hq, put_words, filter_append_singleton]
      refine (if_pos rfl).trans ?_
      exact congrArg (· ++ _) (hfree .initiator).2
    have hother : q.entry .responder id' = none ∧ q.words .responder id' = [] := by
      rw [hq]
      exact ⟨(put_entry_other ..).trans (hfree .responder).1,
        (put_words_other ..).trans (hfree .responder).2⟩
    refine ⟨⟨⟨_, hentry, ?_⟩, .inl hother⟩, by rw [state?, hentry]; rfl, by rw [state?, hother.1]; rfl,
      by rw [hwords]; rfl, hother.2⟩
    refine ⟨hpeer, rfl, ?_, ?_⟩
    · rw [hwords]
      intro m hm
      obtain rfl := List.mem_singleton.1 hm
      exact ⟨rfl, rfl⟩
    · rw [hwords]
      intro step k hk
      cases step <;> cases hk <;> exact Nat.le_refl _

/-- AGREEMENT: two engines negotiate under a number that nobody has used, in a dialogue that the
    initiator opens with a call for proposals, that neither side evicts, and that is the responder's
    only one under the number. Whatever is done, lost, repeated and reordered, each step that leads on
    is sent at most once and by its own side; the responder comes to accept by an acceptance with the
    number 3, which the initiator has sent on coming to accept with that number; and the initiator
    comes to accept behind the delivery of the proposal that the responder has sent. -/
theorem accepted_by_agreement {p : Parley} (hp : p.Reachable) {id : DialogueId}
    (hfree : ∀ r, p.entry r id = none ∧ p.words r id = []) {now : Millis} {peer : Address} {payload : Cfp}
    (hopen : ((p.side .initiator).openDialogue (.keeping (.ok ())) now peer (.cfp payload)).1 = .ok id)
    (hpeer : peer.key = (p.home .responder).key) {q : Parley}
    (hq : q = p.step now (.act .initiator (.cfp peer payload) (.ok ()))) {es : List (Millis × Event)}
    (hes : ∀ pre e, pre ++ [e] <+: es → Undisturbed id (q.run pre) (q.run (pre ++ [e]))) :
    (count ((q.run es).words .initiator id) .cfp ≤ 1 ∧ count ((q.run es).words .responder id) .cfp = 0 ∧
      count ((q.run es).words .initiator id) .propose = 0 ∧
      count ((q.run es).words .responder id) .propose ≤ 1 ∧
      count ((q.run es).words .initiator id) .accept ≤ 1 ∧
      count ((q.run es).words .responder id) .accept = 0) ∧
    (q.state? .initiator id = some .cfpSent ∧ q.state? .responder id = none) ∧
    (∀ pre e, pre ++ [e] <+: es → Enters id (q.run pre) (q.run (pre ++ [e])) .responder .accepted →
      ∃ m, e.2 = .deliver .initiator m ∧ m.body = .accept ∧ m.answer = 3 ∧
        ∃ pre' e', pre' ++ [e'] <+: pre ∧
          Enters id (q.run pre') (q.run (pre' ++ [e'])) .initiator .accepted ∧
          Says id (q.run pre') (q.run (pre' ++ [e'])) .initiator m ∧
          ∃ d, (q.run (pre' ++ [e'])).entry .initiator id = some d ∧ d.lastAnswer = 3) ∧
    ∀ pre e, pre ++ [e] <+: es → Enters id (q.run pre) (q.run (pre ++ [e])) .initiator .accepted →
      ∃ m proposal, m.body = .propose proposal ∧
        ∃ pre₁ e₁ pre₂ e₂, pre₁ ++ [e₁] <+: pre₂ ∧ pre₂ ++ [e₂] <+: pre ∧
          Enters id (q.run pre₁) (q.run (pre₁ ++ [e₁])) .responder .proposalSent ∧
          Says id (q.run pre₁) (q.run (pre₁ ++ [e₁])) .responder m ∧
          e₂.2 = .deliver .responder m ∧
          Enters id (q.run pre₂) (q.run (pre₂ ++ [e₂])) .initiator .proposalReceived := by
  obtain ⟨hstart, hcaller, hcalled, hquiet, hsilent⟩ := hq ▸ opened hfree hopen hpeer
  have hk : ∀ r, (q.engine r).Holds fun _ => True := hq ▸ step_holds hp.holds now _
  have hsound : ∀ {pre}, pre <+: es → Sound (q.run pre) id := fun hpre =>
    hstart.run hk fun pre' e hpre' => hes pre' e (hpre'.trans hpre)
  have hstep : ∀ {pre e}, pre ++ [e] <+: es → Sound (q.run pre) id ∧
      (∀ r, ((q.run pre).engine r).Holds fun _ => True) ∧
      Undisturbed id (q.run pre) ((q.run pre).step e.1 e.2) := fun {pre e} hpre =>
    ⟨hsound ((List.prefix_append ..).trans hpre), run_holds hk pre, run_concat q pre e ▸ hes pre e hpre⟩
  have hend : Sound (q.run es) id := hsound List.prefix_rfl
  refine ⟨⟨hend.count_le_one _ rfl, hend.count_eq_zero _ fun _ _ h => h, hend.count_eq_zero _ fun _ _ h => h,
    hend.count_le_one _ rfl, hend.count_le_one _ rfl, hend.count_eq_zero _ fun _ _ h => h⟩,
    ⟨hcaller, hcalled⟩, ?_, ?_⟩
  · intro pre e hpre hen
    obtain ⟨hs, hk', hu⟩ := hstep hpre
    rw [run_concat] at hen
    obtain ⟨m, hev, hm, hbody, hanswer⟩ := hs.concludes hk' hu hen
    -- the acceptance was not there at the start
    have hnot : m ∉ q.words .initiator id := fun hm' =>
      List.countP_eq_zero.1 hquiet m hm' (decide_eq_true hbody)
    obtain ⟨pre', e', hpre', hn, hsaid⟩ :=
      exists_moment (P := fun p => m ∈ p.words .initiator id) hnot hm
    obtain ⟨hs', hk', hu'⟩ := hstep (hpre'.trans ((List.prefix_append ..).trans hpre))
    rw [run_concat] at hsaid
    obtain ⟨hspoken, henters⟩ := hs'.says_accept hk' hu' hn hsaid hbody
    obtain ⟨-, hlast⟩ := hs'.accepts hk' hu' henters
    refine ⟨m, hev, ?_, hanswer, pre', e', hpre', ?_⟩
    · revert hbody
      cases m.body <;> simp [Body.step]
    · rw [run_concat]
      exact ⟨henters, hspoken, hlast⟩
  · intro pre e hpre hen
    obtain ⟨hs, hk', hu⟩ := hstep hpre
    rw [run_concat] at hen
    obtain ⟨hholds, -⟩ := hs.accepts hk' hu hen
    -- the proposal is held since a delivery
    obtain ⟨pre₂, e₂, hpre₂, hn₂, hin₂⟩ :=
      exists_moment (P := fun p => p.state? .initiator id = some .proposalReceived)
        (by rw [hcaller]; simp) hholds
    obtain ⟨hs₂, hk₂, hu₂⟩ := hstep (hpre₂.trans ((List.prefix_append ..).trans hpre))
    rw [run_concat] at hin₂
    obtain ⟨m, hev, hm, hbody⟩ := hs₂.learns hk₂ hu₂ ⟨hn₂, hin₂⟩
    -- and what was delivered had been sent
    obtain ⟨pre₁, e₁, hpre₁, hn₁, hsaid⟩ :=
      exists_moment (P := fun p => m ∈ p.words .responder id) (hsilent ▸ List.not_mem_nil) hm
    obtain ⟨hs₁, hk₁, hu₁⟩ := hstep (hpre₁.trans ((List.prefix_append ..).trans
      (hpre₂.trans ((List.prefix_append ..).trans hpre))))
    rw [run_concat] at hsaid
    obtain ⟨hspoken, henters⟩ := hs₁.proposes hk₁ hu₁ hn₁ hsaid hbody
    obtain ⟨proposal, hproposal⟩ : ∃ proposal, m.body = .propose proposal := by
      revert hbody
      cases m.body <;> simp [Body.step]
    refine ⟨m, proposal, hproposal, pre₁, e₁, pre₂, e₂, hpre₁, hpre₂, ?_⟩
    rw [run_concat, run_concat]
    exact ⟨henters, hspoken, hev, hn₂, hin₂⟩

/-- Calls and offers that arrive twice do not keep two engines from a deal. -/
theorem accepted_despite_repetition :
    let a : Address := .ofKey "alice"
    let b : Address := .ofKey "bob"
    let p : Parley := ⟨fun
      | .initiator => { home := a, table := .new {} 1 }
      | .responder => { home := b, table := .new {} 1 }, fun _ => []⟩
    let q := p.step 0 (.act .initiator (.cfp b .nothing) (.ok ()))
    let call : Outgoing :=
      { answer := 1, dialogue := 1, target := 0, route := .towards a b true, body := .cfp .nothing }
    let offer : Outgoing :=
      { answer := 2, dialogue := 1, target := 1, route := ((call.delivered a).route b).swap
        body := .propose (.content [7]) }
    let yes : Outgoing :=
      { answer := 3, dialogue := 1, target := 2, route := ((offer.delivered b).route a).swap
        body := .accept }
    let es : List (Millis × Event) :=
      [(1, .deliver .initiator call), (2, .deliver .initiator call),
        (3, .act .responder (.propose 1 (.content [7])) (.ok ())), (4, .deliver .responder offer),
        (5, .deliver .responder offer), (6, .act .initiator (.accept 1) (.ok ())),
        (7, .deliver .initiator yes)]
    (q.run es).state? .responder 1 = some .accepted ∧ count ((q.run es).words .initiator 1) .accept ≤ 1 ∧
    ∃ pre' e', pre' ++ [e'] <+: es.dropLast ∧
      Enters 1 (q.run pre') (q.run (pre' ++ [e'])) .initiator .accepted := by
  intro a b p q call offer yes es
  have hreach : p.Reachable := by
    refine ⟨p, [], ⟨fun r => ?_, fun _ => rfl⟩, rfl⟩
    cases r <;> exact ⟨_, {}, 1, rfl⟩
  have hes : ∀ pre e, pre ++ [e] <+: es → Undisturbed 1 (q.run pre) (q.run (pre ++ [e])) := by
    refine forall_moments (P := fun pre e => Undisturbed 1 (q.run pre) (q.run (pre ++ [e]))) ?_
    decide +kernel
  have hfree : ∀ r, p.entry r 1 = none ∧ p.words r 1 = [] := fun r => by cases r <;> exact ⟨rfl, rfl⟩
  have hopen : ((p.side .initiator).openDialogue (.keeping (.ok ())) 0 b (.cfp .nothing)).1 = .ok 1 := rfl
  have hpeer : b.key = (p.home .responder).key := rfl
  obtain ⟨⟨-, -, -, -, hcount, -⟩, -, hresponder, -⟩ :=
    accepted_by_agreement hreach hfree hopen hpeer rfl hes
  have hdone : (q.run es).state? .responder 1 = some .accepted := by decide +kernel
  obtain ⟨m, -, -, -, pre', e', hpre', henters, -⟩ := hresponder es.dropLast (7, .deliver .initiator yes)
    ⟨[], rfl⟩ ⟨by decide +kernel, hdone⟩
  exact ⟨hdone, hcount, pre', e', hpre', henters⟩

end Parley

end Negotiation
