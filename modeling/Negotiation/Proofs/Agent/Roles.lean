import Negotiation.Proofs.Agent.Reachable

/-!
The parts that agents play. Whoever began a dialogue calls and accepts, the other proposes; so one side
of a dialogue is never in the states of the other, and neither is ever back where nothing has been said.
Whoever has heard from the counterparty knows the way back. Main statement: all dialogues of an engine
that comes about keep this discipline.
-/

namespace Negotiation

theorem AnswerId.next_ne_zero (a : AnswerId) : AnswerId.next a ≠ 0 := by
  intro h
  have hn := congrArg UInt32.toNat h
  rw [AnswerId.toNat_next, UInt32.toNat_zero] at hn
  omega

/-- Only a first step of the agent itself leads to where it has called and not been answered. -/
theorem State.of_next?_eq_cfpSent {s : State} {step : Step} {dir : Direction}
    (h : s.next? (.step step dir) = some .cfpSent) : s = .idle ∧ dir = .outbound := by
  have hcases := next?_step_cases h
  simp only [reduceCtorEq, and_false, or_false, and_true] at hcases
  exact ⟨hcases.1, hcases.2.2⟩

/-- A proposal that was received came from the counterparty. -/
theorem State.of_next?_eq_proposalReceived {s : State} {step : Step} {dir : Direction}
    (h : s.next? (.step step dir) = some .proposalReceived) : dir = .inbound := by
  have hcases := next?_step_cases h
  simp only [reduceCtorEq, and_false, or_false, false_or, and_true] at hcases
  exact hcases.2.2

namespace Dialogue

/-- A dialogue that has begun, in a state that belongs to the agent's role. -/
structure InRole (d : Dialogue) : Prop where
  begun : d.state ≠ .idle
  numbered : d.lastAnswer ≠ 0
  initiator : d.role = .initiator → d.state ≠ .cfpReceived ∧ d.state ≠ .proposalSent
  responder : d.role = .responder → d.state ≠ .cfpSent ∧ d.state ≠ .proposalReceived

namespace InRole

variable {d : Dialogue} {s : State} {step : Step} {now : Millis}

/-- Every step of the protocol keeps to the roles. -/
theorem keeps (h : d.InRole) {dir : Direction} (hs : d.state.next? (.step step dir) = some s) :
    s ≠ .idle ∧ (d.role = .initiator → s ≠ .cfpReceived ∧ s ≠ .proposalSent) ∧
      (d.role = .responder → s ≠ .cfpSent ∧ s ≠ .proposalReceived) := by
  rcases State.next?_step_cases hs with ⟨hidle, -⟩ | ⟨hidle, -⟩ | ⟨hcalled, -, -, rfl⟩ |
    ⟨hcaller, -, -, rfl⟩ | ⟨-, -, -, rfl⟩ | ⟨-, -, -, rfl⟩ | ⟨-, -, rfl⟩ | ⟨-, -, rfl⟩ | ⟨-, -, rfl⟩
  · exact absurd hidle h.begun
  · exact absurd hidle h.begun
  · exact ⟨by simp, fun hr => absurd hcalled (h.initiator hr).1, by simp⟩
  · exact ⟨by simp, by simp, fun hr => absurd hcaller (h.responder hr).1⟩
  · simp
  · simp
  · simp
  · simp
  · simp

end InRole

/-- Every dialogue lasts in its role. -/
theorem lasting_inRole (home : Address) : Lasting home (fun _ => True) InRole where
  opened {id peer step now s} _ hs := by
    have hstate : s = .cfpSent ∨ s = .messaging := by
      cases step <;> simp [State.next?, State.afterStep?, Transition.send] at hs <;> simp [← hs]
    refine ⟨?_, AnswerId.next_ne_zero 0, fun _ => ?_, by rintro ⟨⟩⟩ <;>
      rcases hstate with rfl | rfl <;> simp [sent, touch]
  called {m now s} _ hx hs := by
    have hstate : s = .cfpReceived ∨ s = .messaging := by
      cases hb : m.body.step <;> rw [hb] at hs <;>
        simp [State.next?, State.afterStep?, Transition.receive] at hs <;> simp [← hs]
    have hpos : (0 : AnswerId) < m.answer := hx.2.2
    refine ⟨?_, UInt32.pos_iff_ne_zero.1 hpos, by rintro ⟨⟩, fun _ => ?_⟩ <;>
      rcases hstate with rfl | rfl <;> simp [received, touch]
  sent {d step now s} h hs := by
    obtain ⟨hidle, hini, hres⟩ := h.keeps hs
    exact ⟨hidle, AnswerId.next_ne_zero _, hini, hres⟩
  received {d m now s} h hx hs := by
    obtain ⟨hidle, hini, hres⟩ := h.keeps hs
    refine ⟨hidle, ?_, hini, hres⟩
    have hpos : (0 : AnswerId) < m.answer := UInt32.lt_of_le_of_lt (UInt32.zero_le) hx.2.2
    exact UInt32.pos_iff_ne_zero.1 hpos
  applied {d d' event now} h hev ha := by
    obtain ⟨s, hs, rfl⟩ := apply_eq_ok_iff.1 ha
    obtain ⟨reason, rfl⟩ := State.closed_of_lifecycle hev hs
    split <;> exact ⟨by simp [touch], h.numbered, by simp [touch], by simp [touch]⟩

/-! ### The way back -/

/-- A dialogue in its role that knows a way back just when it must have heard from its counterparty. -/
structure Disciplined (d : Dialogue) : Prop extends d.InRole where
  called : d.role = .responder → d.replyRoute.isSome
  unanswered : d.state = .cfpSent → d.replyRoute = none
  answered : d.state = .proposalReceived → d.replyRoute.isSome

/-- Every dialogue lasts in its discipline. -/
theorem lasting_disciplined (home : Address) : Lasting home (fun _ => True) Disciplined where
  opened {id peer step now s} hp hs :=
    { toInRole := (lasting_inRole home).opened hp hs
      called := by rintro ⟨⟩
      unanswered := fun _ => rfl
      answered := by
        rintro rfl
        cases State.of_next?_eq_proposalReceived hs }
  called {m now s} hp hx hs :=
    { toInRole := (lasting_inRole home).called hp hx hs
      called := fun _ => rfl
      unanswered := by
        rintro rfl
        cases (State.of_next?_eq_cfpSent hs).2
      answered := fun _ => rfl }
  sent {d step now s} h hs :=
    { toInRole := (lasting_inRole home).sent h.toInRole hs
      called := h.called
      unanswered := by
        rintro rfl
        exact absurd (State.of_next?_eq_cfpSent hs).1 h.begun
      answered := by
        rintro rfl
        cases State.of_next?_eq_proposalReceived hs }
  received {d m now s} h hx hs :=
    { toInRole := (lasting_inRole home).received h.toInRole hx hs
      called := fun _ => rfl
      unanswered := by
        rintro rfl
        exact absurd (State.of_next?_eq_cfpSent hs).1 h.begun
      answered := fun _ => rfl }
  applied {d d' event now} h hev ha := by
    have hrole := (lasting_inRole home).applied h.toInRole hev ha
    obtain ⟨s, hs, rfl⟩ := apply_eq_ok_iff.1 ha
    obtain ⟨reason, rfl⟩ := State.closed_of_lifecycle hev hs
    refine { toInRole := hrole, called := ?_, unanswered := ?_, answered := ?_ }
    · split <;> exact h.called
    · split <;> rintro ⟨⟩
    · split <;> rintro ⟨⟩

end Dialogue

/-- DISCIPLINE: every dialogue of an engine that comes about has begun and has a number; an initiator is
    never in a responder's states nor a responder in an initiator's; a responder knows the way back, and
    so does whoever has a proposal, while whoever waits for one has not been answered yet. -/
theorem Engine.Reachable.discipline {e : Engine} (h : e.Reachable) {id : DialogueId} {d : Dialogue}
    (hd : e.table.get? id = some d) :
    d.state ≠ .idle ∧ 1 ≤ d.lastAnswer ∧
    (d.role = .initiator → d.state ≠ .cfpReceived ∧ d.state ≠ .proposalSent) ∧
    (d.role = .responder → d.state ≠ .cfpSent ∧ d.state ≠ .proposalReceived) ∧
    (d.role = .responder → d.replyRoute.isSome) ∧
    (d.state = .cfpSent → d.replyRoute = none) ∧
    (d.state = .proposalReceived → d.replyRoute.isSome) := by
  have hkept : d.Disciplined := (h.holds Dialogue.lasting_disciplined id d hd).2
  have hone : 1 ≤ d.lastAnswer := by
    have hpos : 0 < d.lastAnswer := UInt32.pos_iff_ne_zero.2 hkept.numbered
    rw [UInt32.lt_iff_toNat_lt] at hpos
    exact UInt32.le_iff_toNat_le.2 hpos
  exact ⟨hkept.begun, hone, hkept.initiator, hkept.responder, hkept.called, hkept.unanswered,
    hkept.answered⟩

/-- A caller that has been answered with a proposal knows the way back. -/
theorem way_back_of_proposal :
    let e : Engine := { home := .ofKey "alice", table := .new {} 1 }
    let offer : Message :=
      { answer := 2, dialogue := 1, origin := .ofKey "bob", target := 1, body := .propose (.content []) }
    let idle : Handler Unit := ⟨fun _ _ => ([], ())⟩
    let cs : List (Millis × Linked.Call) :=
      [(1, .act (.cfp (.ofKey "bob") .nothing)), (2, .take (.agent offer))]
    ∃ s d, Linked.calls Transport.recorder idle 0 ⟨e, {}⟩ () cs = some (s, ()) ∧
      s.engine.table.get? 1 = some d ∧ d.role = .initiator ∧ d.state = .proposalReceived ∧
      d.replyRoute.isSome := by
  intro e offer idle cs
  have hnew : Engine.new (.ofKey "alice") {} 1 = .ok e := rfl
  have hcalls : ∃ s, Linked.calls Transport.recorder idle 0 ⟨e, {}⟩ () cs = some (s, ()) ∧
      ∃ d, s.engine.table.get? 1 = some d ∧ d.role = .initiator ∧ d.state = .proposalReceived :=
    ⟨_, rfl, _, rfl, rfl, rfl⟩
  obtain ⟨s, hs, d, hd, hr, hp⟩ := hcalls
  have hreach : s.engine.Reachable := (Engine.Reachable.new hnew).calls (s := ⟨e, {}⟩) hs
  exact ⟨s, d, hs, hd, hr, hp, (Engine.Reachable.discipline hreach hd).2.2.2.2.2.2 hp⟩

end Negotiation
