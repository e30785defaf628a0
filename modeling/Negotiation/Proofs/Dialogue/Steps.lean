import Mathlib.Tactic.Tauto
import Negotiation.Dialogue
import Negotiation.Proofs.Result

/-!
What the operations of a dialogue do, each said once. An operation succeeds in exactly one way, and
its inversion lemma names the conditions and the dialogue behind it; nothing later unfolds the
operations. `State.next?_step_cases` lists the steps of the protocol in the same manner.
-/

namespace Negotiation

/-! ### Numbers -/

theorem AnswerId.toNat_next (a : AnswerId) :
    (AnswerId.next a).toNat = min (a.toNat + 1) 0xFFFFFFFF := by
  have hlt : a.toNat < 2 ^ 32 := a.toNat_lt
  rw [AnswerId.next]
  split
  · next h => rw [h]; decide
  · next h =>
    have hne : a.toNat ≠ 0xFFFFFFFF := fun hn => h (UInt32.toNat_inj.1 hn)
    rw [UInt32.toNat_add]
    simp only [UInt32.toNat_one]
    omega

theorem AnswerId.le_next (a : AnswerId) : a ≤ AnswerId.next a := by
  have hlt : a.toNat < 2 ^ 32 := a.toNat_lt
  rw [UInt32.le_iff_toNat_le, toNat_next]
  omega

/-- A delivered message comes from its sender, whatever its route says. -/
theorem Outgoing.key_originFor (m : Outgoing) (sender : Address) :
    (m.originFor sender).key = sender.key := by
  rw [originFor]
  split
  · split
    · next h => exact of_decide_eq_true h
    · rfl
  · rfl

/-! ### What messages say -/

theorem Body.step_eq_decline {b : Body} : b.step = .decline ↔ b = .decline := by
  cases b <;> simp [step]

theorem Body.step_eq_message {b : Body} : b.step = .message ↔ ∃ content, b = .message content := by
  cases b <;> simp [step]

/-! ### States -/

namespace State

/-- The steps of the protocol, one case for each pair of states that a step joins. -/
theorem next?_step_cases {s s' : State} {step : Step} {dir : Direction}
    (h : s.next? (.step step dir) = some s') :
    (s = .idle ∧ step = .cfp ∧ dir = .outbound ∧ s' = .cfpSent) ∨
    (s = .idle ∧ step = .cfp ∧ dir = .inbound ∧ s' = .cfpReceived) ∨
    (s = .cfpReceived ∧ step = .propose ∧ dir = .outbound ∧ s' = .proposalSent) ∨
    (s = .cfpSent ∧ step = .propose ∧ dir = .inbound ∧ s' = .proposalReceived) ∨
    (s = .proposalReceived ∧ step = .accept ∧ dir = .outbound ∧ s' = .accepted) ∨
    (s = .proposalSent ∧ step = .accept ∧ dir = .inbound ∧ s' = .accepted) ∨
    ((s = .cfpSent ∨ s = .cfpReceived ∨ s = .proposalSent ∨ s = .proposalReceived) ∧
      step = .decline ∧ s' = .closed .declined) ∨
    (s = .accepted ∧ step = .message ∧ s' = .accepted) ∨
    ((s = .idle ∨ s = .messaging) ∧ step = .message ∧ s' = .messaging) := by
  cases s <;> cases step <;> cases dir <;> simp [next?, afterStep?] at h <;> subst h <;> simp

/-- An event that sends nothing closes the dialogue. -/
theorem closed_of_lifecycle {s s' : State} {t : Transition} (ht : ∀ step dir, t ≠ .step step dir)
    (h : s.next? t = some s') : ∃ reason, s' = .closed reason := by
  cases t with
  | step step dir => exact absurd rfl (ht step dir)
  | complete | cancel | dialogueError | timeout =>
    cases s <;> simp [next?] at h <;> exact ⟨_, h.symm⟩

theorem ne_idle_of_next? {s s' : State} {t : Transition} (h : s.next? t = some s') : s' ≠ .idle := by
  cases t with
  | step step dir =>
    rcases next?_step_cases h with ⟨-, -, -, rfl⟩ | ⟨-, -, -, rfl⟩ | ⟨-, -, -, rfl⟩ | ⟨-, -, -, rfl⟩ |
      ⟨-, -, -, rfl⟩ | ⟨-, -, -, rfl⟩ | ⟨-, -, rfl⟩ | ⟨-, -, rfl⟩ | ⟨-, -, rfl⟩ <;> simp
  | complete | cancel | dialogueError | timeout =>
    obtain ⟨reason, rfl⟩ := closed_of_lifecycle (by simp) h
    simp

/-- Nothing happens to what is closed, but that it may be cancelled again. -/
theorem eq_cancel_of_isClosed {s s' : State} {t : Transition} (hc : s.isClosed)
    (h : s.next? t = some s') : t = .cancel ∧ s' = s := by
  cases s with
  | closed reason =>
    cases t <;> simp [next?] at h
    exact ⟨rfl, h.symm⟩
  | _ => cases hc

end State

namespace Dialogue

variable {d d' : Dialogue} {now : Millis}

/-! ### The note of time -/

section Touch

variable (d : Dialogue) (now : Millis)

@[simp] theorem touch_id : (d.touch now).id = d.id := rfl
@[simp] theorem touch_counterparty : (d.touch now).counterparty = d.counterparty := rfl
@[simp] theorem touch_role : (d.touch now).role = d.role := rfl
@[simp] theorem touch_state : (d.touch now).state = d.state := rfl
@[simp] theorem touch_lastAnswer : (d.touch now).lastAnswer = d.lastAnswer := rfl
@[simp] theorem touch_lastTarget : (d.touch now).lastTarget = d.lastTarget := rfl
@[simp] theorem touch_createdAt : (d.touch now).createdAt = d.createdAt := rfl
@[simp] theorem touch_replyRoute : (d.touch now).replyRoute = d.replyRoute := rfl

end Touch

/-! ### Inversion -/

theorem after_eq_ok_iff {t : Transition} {s : State} :
    d.after t = .ok s ↔ d.state.next? t = some s := by
  rw [after]
  cases d.state.next? t <;> simp

/-- The dialogue behind a received step. -/
def received (d : Dialogue) (m : Message) (route : Route) (now : Millis) (s : State) : Dialogue :=
  touch { d with state := s, lastAnswer := m.answer, lastTarget := m.target, replyRoute := some route } now

/-- The dialogue behind a step that is sent. -/
def sent (d : Dialogue) (now : Millis) (s : State) : Dialogue :=
  touch { d with state := s, lastAnswer := AnswerId.next d.lastAnswer, lastTarget := d.lastAnswer } now

/-- The stamp of the next step. -/
def stamp (d : Dialogue) (home : Address) : Stamp :=
  ⟨AnswerId.next d.lastAnswer, d.lastAnswer, d.sendRoute home⟩

/-- A message of the counterparty that answers the last step and has a higher number than it. -/
def Expects (d : Dialogue) (m : Message) : Prop :=
  m.origin.sameAgent d.counterparty ∧ m.target = d.lastAnswer ∧ d.lastAnswer < m.answer

instance (d : Dialogue) (m : Message) : Decidable (d.Expects m) :=
  inferInstanceAs (Decidable (_ ∧ _ ∧ _))

/-- The three checks of a received message, in their order. -/
theorem receive_eq (d : Dialogue) (m : Message) (route : Route) (now : Millis) :
    d.receive m route now =
      if ¬ m.origin.sameAgent d.counterparty then
        .error (.counterpartyMismatch d.id d.counterparty m.origin)
      else if ¬ d.Expects m then .error (.outOfSequence d.id m.answer m.target d.lastAnswer)
      else (d.after (.receive m.body.step)).map (d.received m route now) := by
  rw [receive]
  split
  · rfl
  · next ho =>
    have hseq : (m.target ≠ d.lastAnswer ∨ m.answer ≤ d.lastAnswer) ↔ ¬ d.Expects m := by
      rw [Expects, not_and, not_and, ← UInt32.not_le]
      tauto
    simp only [hseq]
    split
    · rfl
    · cases d.after (.receive m.body.step) <;> rfl

theorem receive_eq_ok_iff {m : Message} {route : Route} : d.receive m route now = .ok d' ↔
    d.Expects m ∧ ∃ s, d.state.next? (.receive m.body.step) = some s ∧ d' = d.received m route now s := by
  rw [receive_eq]
  split
  · next ho => simp [Expects, ho]
  · split
    · next he => simp [he]
    · next he =>
      have he : d.Expects m := not_not.1 he
      simp only [he, true_and, ← after_eq_ok_iff]
      cases d.after (.receive m.body.step) <;> simp [Except.map, eq_comm]

theorem send_eq_ok_iff {step : Step} {home : Address} {stamp : Stamp} :
    d.send step home now = .ok (stamp, d') ↔
    ∃ s, d.state.next? (.send step) = some s ∧ stamp = d.stamp home ∧ d' = d.sent now s := by
  rw [send, Result.bind_eq_ok_iff]
  simp only [after_eq_ok_iff, Except.ok.injEq, Prod.mk.injEq]
  exact exists_congr fun s => and_congr_right fun _ => and_congr eq_comm eq_comm

theorem apply_eq_ok_iff {t : Transition} : d.apply t now = .ok d' ↔
    ∃ s, d.state.next? t = some s ∧
      d' = if d.isClosed then { d with state := s } else touch { d with state := s } now := by
  rw [apply, Result.bind_eq_ok_iff]
  simp only [after_eq_ok_iff, Except.ok.injEq]
  exact exists_congr fun s => and_congr_right fun _ => eq_comm

/-! ### The number -/

theorem receive_id {m : Message} {route : Route} (h : d.receive m route now = .ok d') : d'.id = d.id := by
  obtain ⟨-, s, -, rfl⟩ := receive_eq_ok_iff.1 h
  rfl

theorem send_id {step : Step} {home : Address} {stamp : Stamp}
    (h : d.send step home now = .ok (stamp, d')) : d'.id = d.id := by
  obtain ⟨s, -, -, rfl⟩ := send_eq_ok_iff.1 h
  rfl

theorem apply_id {t : Transition} (h : d.apply t now = .ok d') : d'.id = d.id := by
  obtain ⟨s, -, rfl⟩ := apply_eq_ok_iff.1 h
  split <;> rfl

end Dialogue

end Negotiation
