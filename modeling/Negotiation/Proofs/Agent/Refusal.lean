import Negotiation.Exchange
import Negotiation.Proofs.Agent.Reachable
import Negotiation.Proofs.Table.Receiving

/-!
Replies that fail. A step that is illegal is refused by the engine itself and leaves no trace. One that
is legal is committed before the transport sees it, and stays committed when the transport refuses it:
other than an opening, it is recorded as sent although it never left the agent. Main statement: this, and
what follows from it, that the step cannot be tried again and that the counterparty, who knows nothing of
it, is out of sequence from then on.
-/

namespace Negotiation

theorem AnswerId.next_ne {a : AnswerId} (h : a ≠ 0xFFFFFFFF) : AnswerId.next a ≠ a := by
  rw [next, if_neg h]
  intro hn
  have hlt : a.toNat < 2 ^ 32 := a.toNat_lt
  have hmod : (a.toNat + 1) % 2 ^ 32 = a.toNat := by
    simpa only [UInt32.toNat_add, UInt32.toNat_one] using congrArg UInt32.toNat hn
  omega

/-- Of the steps of the protocol, only a message can be sent twice in a row. -/
theorem State.next?_send_again {s s' : State} {step : Step} (h : s.next? (.send step) = some s')
    (hstep : step ≠ .message) : s'.next? (.send step) = none := by
  have hcases := next?_step_cases h
  simp only [hstep, false_and, and_false, or_false] at hcases
  rcases hcases with ⟨-, rfl, -, rfl⟩ | ⟨-, rfl, -, rfl⟩ | ⟨-, rfl, -, rfl⟩ | ⟨-, rfl, -, rfl⟩ |
    ⟨-, rfl, -, rfl⟩ | ⟨-, rfl, -, rfl⟩ | ⟨-, rfl, rfl⟩ <;> rfl

namespace Linked

variable {β : Type} {T : Transport β} {now : Millis} {s s' : Linked β} {id : DialogueId} {d : Dialogue}
  {body : Body} {f : Failure}

/-- A reply in a dialogue that is held fails in one of two ways: it is illegal and nothing happens, or
the transport refuses it and it is committed all the same. -/
theorem reply_error_cases (hd : s.engine.table.get? id = some d)
    (hr : s.reply T now id body = (.error f, s')) :
    (f = .illegalTransition d.id d.state (.send body.step) ∧ s' = s) ∨
    ∃ te st, f = .transport te ∧ d.state.next? (.send body.step) = some st ∧
      s'.engine = s.engine.put (d.sent now st) := by
  cases hs : d.state.next? (.send body.step) with
  | none =>
    rw [reply_of_illegal T now hd hs] at hr
    cases hr
    exact .inl ⟨rfl, rfl⟩
  | some st =>
    rw [reply_of_legal T now hd hs] at hr
    have hengine := engine_of_transmit hr
    rw [transmit] at hr
    cases hsubmit : (T.submit s.link (.send (Engine.outgoing id (d.stamp s.engine.home) body))).1 with
    | ok u => simp [hsubmit, Except.mapError] at hr
    | error te =>
      simp only [hsubmit, Except.mapError, Prod.mk.injEq, Except.error.injEq] at hr
      exact .inr ⟨te, st, hr.1.symm, rfl, hengine⟩

end Linked

/-- RECORDED: a reply in a dialogue of an engine that comes about, when it fails for another reason than
    the transport, leaves everything as it was. When the transport refuses it, the dialogue is the one
    behind a step that was sent, and the others are as they were; so, unless it was a message, the same
    step is illegal from then on, and whatever the counterparty sends as the answer to the last step that
    both know is out of sequence, unless the numbers have run out. -/
theorem Engine.Reachable.failed_reply {β : Type} (T : Transport β) (now : Millis) {s s' : Linked β}
    (h : s.engine.Reachable) {id : DialogueId} {d : Dialogue} (hd : s.engine.table.get? id = some d)
    {body : Body} {f : Failure} (hr : s.reply T now id body = (.error f, s')) :
    ((∀ te, f ≠ .transport te) → s' = s) ∧
    ∀ te, f = .transport te → ∃ st, d.state.next? (.send body.step) = some st ∧
      s'.engine.table.get? id = some (d.sent now st) ∧
      (∀ other, other ≠ id → s'.engine.table.get? other = s.engine.table.get? other) ∧
      (body.step ≠ .message → ∀ (T' : Transport β) (later : Millis) (again : Body),
        again.step = body.step → s'.reply T' later id again =
          (.error (.illegalTransition id st (.send body.step)), s')) ∧
      (d.lastAnswer ≠ 0xFFFFFFFF → ∀ (m : Message) (later : Millis), m.dialogue = id →
        m.origin.key = d.counterparty.key → m.target = d.lastAnswer → s'.engine.receive m later =
          .error (.outOfSequence id m.answer m.target (AnswerId.next d.lastAnswer))) := by
  have hid : d.id = id := h.id_eq hd
  rcases Linked.reply_error_cases hd hr with ⟨rfl, rfl⟩ | ⟨te, st, rfl, hs, he⟩
  · exact ⟨fun _ => rfl, by rintro te ⟨⟩⟩
  refine ⟨fun hne => absurd rfl (hne te), fun _ _ => ⟨st, hs, ?_⟩⟩
  have hput : ∀ other, s'.engine.table.get? other =
      if id = other then some (d.sent now st) else s.engine.table.get? other := by
    intro other
    rw [he, get?_put, show (d.sent now st).id = id from hid]
  have hheld : s'.engine.table.get? id = some (d.sent now st) := by rw [hput, if_pos rfl]
  refine ⟨hheld, fun other hne => by rw [hput, if_neg hne.symm], ?_, ?_⟩
  · intro hmessage T' later again hagain
    have hnone : (d.sent now st).state.next? (.send again.step) = none :=
      hagain ▸ State.next?_send_again hs hmessage
    rw [Linked.reply_of_illegal T' later hheld hnone, hagain, show (d.sent now st).id = id from hid]
    rfl
  · rintro hlast m later rfl ho ht
    have hkeyed : s'.engine.table.Keyed := by
      have hholds := (h.holds lasting_true).put (d := d.sent now st) trivial
      exact fun other d' hd' => (hholds other d' (he ▸ hd')).1
    have hbehind : m.target ≠ AnswerId.next d.lastAnswer := ht ▸ (AnswerId.next_ne hlast).symm
    exact receive_eq_error_iff.2 ((Table.answersHeld hkeyed hheld _ later).sequence.2 ⟨ho, .inl hbehind⟩)

/-- A proposal that does not get out cannot be made again once the transport works, and the caller
cannot decline the dialogue any more. -/
theorem proposal_not_again :
    let e : Engine := { home := .ofKey "bob", table := .new {} 1 }
    let call : Message :=
      { answer := 1, dialogue := 1, origin := .ofKey "alice", target := 0, body := .cfp .nothing }
    let no : Message := { call with answer := 2, target := 1, body := .decline }
    let s : Linked Recording :=
      ⟨(e.observe 0 (.agent call)).2.1, { fault := some ⟨.disconnected, 0, some 1⟩ }⟩
    let proposal : Body := .propose (.content [10])
    ∃ s', s.reply Transport.recorder 1 1 proposal = (.error (.transport .disconnected), s') ∧
      s'.reply Transport.recorder 2 1 proposal =
        (.error (.illegalTransition 1 .proposalSent (.send .propose)), s') ∧
      s'.engine.receive no 3 = .error (.outOfSequence 1 2 1 2) := by
  intro e call no s proposal
  have hnew : Engine.new (.ofKey "bob") {} 1 = .ok e := rfl
  have hreach : s.engine.Reachable := (Engine.Reachable.new hnew).observe 0 (.agent call)
  obtain ⟨d, hd, hstate, hlast, hpeer⟩ : ∃ d, s.engine.table.get? 1 = some d ∧
      d.state = .cfpReceived ∧ d.lastAnswer = 1 ∧ d.counterparty.key = "alice" :=
    ⟨_, rfl, rfl, rfl, rfl⟩
  obtain ⟨s', hr⟩ : ∃ s', s.reply Transport.recorder 1 1 proposal =
      (.error (.transport .disconnected), s') := ⟨_, rfl⟩
  obtain ⟨st, hst, -, -, hagain, hout⟩ :=
    (Engine.Reachable.failed_reply Transport.recorder 1 hreach hd hr).2 .disconnected rfl
  rw [hstate] at hst
  obtain rfl : State.proposalSent = st := Option.some.inj hst
  refine ⟨s', hr, hagain (by decide) Transport.recorder 2 proposal rfl, ?_⟩
  have hrefused := hout (by rw [hlast]; decide) no 3 rfl hpeer.symm hlast.symm
  rwa [hlast] at hrefused

/-- Alice has called Bob, and a greeting of his fills her mailbox. His proposal is refused, and yet the
dialogue is no longer the one of before. -/
theorem refused_proposal_recorded :
    let e : Engine := { home := .ofKey "bob", table := .new {} 100 }
    let x := ((Exchange.new 1).setMailbox "alice" {}).setMailbox "bob" {}
    let call : Message :=
      { answer := 1, dialogue := 1, origin := .ofKey "alice", target := 0, body := .cfp .nothing }
    let idle : Handler Unit := ⟨fun _ _ => ([], ())⟩
    let bob := Exchange.connection "bob"
    let cs : List (Millis × Linked.Call) :=
      [(0, .take (.agent call)), (0, .greet (.ofKey "alice") [104, 105])]
    ∃ s s' d d', Linked.calls bob idle 0 ⟨e, x⟩ () cs = some (s, ()) ∧ s.engine.Reachable ∧
      s.engine.table.get? 1 = some d ∧ d.state = .cfpReceived ∧ d.lastAnswer = 1 ∧
      s.reply bob 0 1 (.propose (.content [10])) =
        (.error (.transport (.refused "event queue of alice is full")), s') ∧
      s'.engine.table.get? 1 = some d' ∧ d'.state = .proposalSent ∧ d'.lastAnswer = 2 ∧
      s'.engine.table ≠ s.engine.table := by
  intro e x call idle bob cs
  have hnew : Engine.new (.ofKey "bob") {} 100 = .ok e := rfl
  obtain ⟨s, hs, d, hd, hstate, hlast, s', hr⟩ :
      ∃ s, Linked.calls bob idle 0 ⟨e, x⟩ () cs = some (s, ()) ∧ ∃ d, s.engine.table.get? 1 = some d ∧
      d.state = .cfpReceived ∧ d.lastAnswer = 1 ∧ ∃ s', s.reply bob 0 1 (.propose (.content [10])) =
        (.error (.transport (.refused "event queue of alice is full")), s') :=
    ⟨_, rfl, _, rfl, rfl, rfl, _, Prod.ext (by decide +kernel) rfl⟩
  have hreach : s.engine.Reachable := (Engine.Reachable.new hnew).calls (s := ⟨e, x⟩) hs
  obtain ⟨te, st, -, hst, he⟩ := (Linked.reply_error_cases hd hr).resolve_left (by rintro ⟨⟨⟩, -⟩)
  rw [hstate] at hst
  obtain rfl : State.proposalSent = st := Option.some.inj hst
  have hd' : s'.engine.table.get? 1 = some (d.sent 0 .proposalSent) := by
    rw [he, Engine.get?_put]
    exact if_pos (hreach.id_eq hd)
  have hlast' : (d.sent 0 .proposalSent).lastAnswer = 2 := by
    show AnswerId.next d.lastAnswer = 2
    rw [hlast]
    decide
  refine ⟨s, s', d, _, hs, hreach, hd, hstate, hlast, hr, hd', rfl, hlast', fun heq => ?_⟩
  rw [heq, hd] at hd'
  rw [← Option.some.inj hd', hlast] at hlast'
  exact absurd hlast' (by decide)

end Negotiation
