import Negotiation.Proofs.Agent.Roles
import Negotiation.Proofs.Parley

/-!
Two conversations under one number. Each side numbers the dialogues that it begins by itself, and
knows a dialogue by its number and its counterparty only; so when both begin one under the same
number, what one of them says in its own dialogue can get into the other's. Main statement
(`mixed_only_late`): of all steps only a decline or a later message can, never the call, the first
message, the proposal or the acceptance.
-/

namespace Negotiation

/-! ### What is said and heard by whoever began -/

theorem State.propose_from {s s' : State} (h : s.next? (.send .propose) = some s') : s = .cfpReceived := by
  cases s <;> simp [next?, afterStep?, Transition.send] at h ⊢

/-- Whoever began a dialogue hears a proposal, a decline or a message. -/
theorem Dialogue.InRole.hears {d : Dialogue} (h : d.InRole) (hr : d.role = .initiator) {step : Step}
    {s : State} (hs : d.state.next? (.receive step) = some s) :
    step = .propose ∨ step = .decline ∨ step = .message := by
  rcases State.next?_step_cases hs with ⟨hidle, -⟩ | ⟨hidle, -⟩ | ⟨-, hp, -⟩ | ⟨-, hp, -⟩ | ⟨-, -, hdir, -⟩ |
    ⟨hproposed, -⟩ | ⟨-, hd, -⟩ | ⟨-, hm, -⟩ | ⟨-, hm, -⟩
  · exact absurd hidle h.begun
  · exact absurd hidle h.begun
  · exact .inl hp
  · exact .inl hp
  · cases hdir
  · exact absurd hproposed (h.initiator hr).2
  · exact .inr (.inl hd)
  · exact .inr (.inr hm)
  · exact .inr (.inr hm)

namespace Linked

/-- A deed leaves the list of what was sent alone, or puts the message of a legal step behind it, and
the dialogue has taken the step. -/
theorem sent_carryOut {s : Linked (List Outgoing)} (hk : s.engine.Holds fun _ => True)
    (verdict : Except TransportError Unit) (now : Millis) (deed : Deed) :
    (s.carryOut (.keeping verdict) now deed).2.link = s.link ∨
    ∃ id d body st, (d.state = .idle ∨ s.engine.table.get? id = some d) ∧
      d.state.next? (.send body.step) = some st ∧
      (s.carryOut (.keeping verdict) now deed).2.link =
        s.link ++ [Engine.outgoing id (d.stamp s.engine.home) body] ∧
      (s.carryOut (.keeping verdict) now deed).2.engine.table.get? id = some (d.sent now st) := by
  cases deed with
  | opening peer body =>
    rcases s.openDialogue_keeping verdict now peer body with ⟨f, a, h⟩ | ⟨id, a, st, -, hst, h⟩ <;>
      simp only [carryOut, done, h]
    · exact .inl trivial
    · refine .inr ⟨id, _, body, st, .inl rfl, hst, rfl, ?_⟩
      rw [Engine.get?_put]
      exact if_pos rfl
  | answer id body =>
    rw [carryOut]
    rcases s.reply_keeping verdict now id body with h | ⟨d, st, sent, hg, hst, h, hsent⟩ <;> rw [h]
    · exact .inl rfl
    · refine hsent.imp_right fun hsent => ⟨id, d, body, st, .inr hg, hst, hsent, ?_⟩
      rw [Engine.get?_put]
      exact if_pos (hk id d hg).1
  | event id t =>
    simp only [carryOut, done, apply]
    cases s.engine.apply id t now <;> exact .inl rfl

end Linked

namespace Parley

/-- An event leaves the list of what a side has sent alone, or puts the message of a legal step behind
it, and the dialogue has taken the step. -/
theorem sent_step {p : Parley} (hk : ∀ r, (p.engine r).Holds fun _ => True) (now : Millis) (e : Event)
    (r : Role) : (p.step now e).sent r = p.sent r ∨
    ∃ id d body st, (d.state = .idle ∨ p.entry r id = some d) ∧
      d.state.next? (.send body.step) = some st ∧
      (p.step now e).sent r = p.sent r ++ [Engine.outgoing id (d.stamp (p.home r)) body] ∧
      (p.step now e).entry r id = some (d.sent now st) := by
  have hdeed : ∀ r' v deed, (p.put r' ((p.side r').carryOut (.keeping v) now deed).2).sent r = p.sent r ∨
      ∃ id d body st, (d.state = .idle ∨ p.entry r id = some d) ∧
        d.state.next? (.send body.step) = some st ∧
        (p.put r' ((p.side r').carryOut (.keeping v) now deed).2).sent r =
          p.sent r ++ [Engine.outgoing id (d.stamp (p.home r)) body] ∧
        (p.put r' ((p.side r').carryOut (.keeping v) now deed).2).entry r id = some (d.sent now st) := by
    intro r' v deed
    by_cases hr : r = r'
    · subst hr
      simp only [put, entry, if_true]
      exact Linked.sent_carryOut (s := p.side r) (hk r) v now deed
    · exact .inl (if_neg hr)
  have hsame : ∀ r' engine, (p.put r' ⟨engine, p.sent r'⟩).sent r = p.sent r := by
    intro r' engine
    rw [put]
    simp only
    split
    · next hr => rw [hr]
    · rfl
  cases e with
  | act r' a v =>
    rw [step, Linked.execute_eq]
    exact hdeed r' v a.deed
  | greet r' peer content v => exact hdeed r' v (.opening peer (.message content))
  | deliver r' m =>
    rw [step]
    split
    · exact .inl (hsame ..)
    · exact .inl rfl
  | meet r' ev =>
    rw [step]
    split
    · exact .inl (hsame ..)
    · exact .inl rfl
  | sweep r' => exact .inl (hsame ..)

theorem Fresh.inRole {p : Parley} (hp : p.Fresh) (es : List (Millis × Event)) (r : Role) :
    ((p.run es).engine r).Holds Dialogue.InRole := by
  induction es using List.reverseRecOn generalizing r with
  | nil =>
    obtain ⟨_, _, _, hnew⟩ := hp.engine r
    exact (Engine.holds_new hnew).2
  | append_singleton es e ih =>
    rw [run_concat]
    exact step_keeps _ e.1 e.2 (I := fun _ e => e.Holds Dialogue.InRole)
      (fun r _ _ hd h => Linked.holds_carryOut (s := (p.run es).side r) (Dialogue.lasting_inRole _) hd h)
      (fun _ _ h => h.observe (Dialogue.lasting_inRole _) fun _ _ => trivial)
      (fun r h => h.sweep (Dialogue.lasting_inRole ((p.run es).home r))) ih r

/-- Two conversations mix: one side sends a message in a dialogue that it began itself, and later the
other takes it into one that the other began itself. -/
structure Mixes (p : Parley) (r : Role) (pre : List (Millis × Event)) (e : Millis × Event)
    (post : List (Millis × Event)) (m : Outgoing) (now : Millis) : Prop where
  sent : (p.run (pre ++ [e])).sent r = (p.run pre).sent r ++ [m]
  own : ∃ d, (p.run (pre ++ [e])).entry r m.dialogue = some d ∧ d.role = .initiator
  taken : ∃ d engine, ((p.run (pre ++ e :: post)).engine r.other).receive (m.delivered (p.home r)) now =
    .ok (d, engine) ∧ d.role = .initiator

/-- MIXING: between two sides that begin as they like, whatever happens, conversations mix by a
    decline or by a message that is not the first, and then the other side began a dialogue under the
    same number as the one that the message is of. -/
theorem mixed_only_late {p : Parley} (hp : p.Fresh) {r : Role} {pre : List (Millis × Event)}
    {e : Millis × Event} {post : List (Millis × Event)} {m : Outgoing} {now : Millis}
    (h : p.Mixes r pre e post m now) :
    (m.body = .decline ∨ ∃ content, m.body = .message content) ∧ m.target ≠ 0 ∧
    ∃ d, (p.run (pre ++ e :: post)).entry r.other m.dialogue = some d ∧ d.role = .initiator := by
  obtain ⟨hsent, ⟨own, hown, hrole⟩, d', engine, htaken, hrole'⟩ := h
  have hkeep : ∀ es r, ((p.run es).engine r).Holds fun _ => True :=
    fun es r id d hd => ⟨(hp.inRole es r id d hd).1, trivial⟩
  -- who sends in a dialogue of its own proposes nothing
  have hno : m.body.step ≠ .propose := by
    intro hpropose
    rw [run_concat] at hsent hown
    rcases sent_step (hkeep pre) e.1 e.2 r with hs | ⟨id, d, body, st, hd, hst, hs, hentry⟩ <;>
      rw [hs] at hsent
    · simpa using congrArg List.length hsent
    · obtain rfl : Engine.outgoing id (d.stamp ((p.run pre).home r)) body = m := by simpa using hsent
      obtain rfl := Option.some.inj (hentry.symm.trans hown)
      have hcalled := State.propose_from (hpropose ▸ hst)
      rcases hd with hidle | hd
      · rw [hidle] at hcalled
        cases hcalled
      · exact ((hp.inRole pre r id d hd).2.initiator hrole).1 hcalled
  -- and who takes into a dialogue of its own holds it
  obtain ⟨hreceive, -, -⟩ := Engine.receive_eq_ok_iff.1 htaken
  obtain ⟨hexpects, s, hs, rfl⟩ := Dialogue.receive_eq_ok_iff.1 hreceive
  rw [Engine.found] at hexpects hs hrole'
  cases hd : ((p.run (pre ++ e :: post)).engine r.other).table.get? m.dialogue with
  | none =>
    rw [show (m.delivered (p.home r)).dialogue = m.dialogue from rfl, hd] at hrole'
    cases hrole'
  | some d =>
    rw [show (m.delivered (p.home r)).dialogue = m.dialogue from rfl, hd] at hrole' hexpects hs
    obtain ⟨-, hin⟩ := hp.inRole _ _ _ _ hd
    refine ⟨?_, ?_, d, hd, hrole'⟩
    · rcases hin.hears hrole' hs with hstep | hstep | hstep
      · exact absurd hstep hno
      · exact .inl (Body.step_eq_decline.1 hstep)
      · exact .inr (Body.step_eq_message.1 hstep)
    · exact fun hz => hin.numbered (hexpects.2.1.symm.trans hz)

/-- A message gets into the conversation that the other began: both have said hello under the number 1,
and refused the other's hello. -/
theorem messages_mix :
    let a : Address := .ofKey "alice"
    let b : Address := .ofKey "bob"
    let p : Parley := ⟨fun
      | .initiator => { home := a, table := .new {} 1 }
      | .responder => { home := b, table := .new {} 1 }, fun _ => []⟩
    let hello (home peer : Address) : Outgoing :=
      { answer := 1, dialogue := 1, target := 0, route := .towards home peer true, body := .message [1] }
    let news : Outgoing :=
      { answer := 2, dialogue := 1, target := 1, route := .towards a b true, body := .message [2] }
    let pre : List (Millis × Event) :=
      [(0, .greet .initiator b [1] (.ok ())), (0, .greet .responder a [1] (.ok ())),
        (1, .deliver .initiator (hello a b)), (1, .deliver .responder (hello b a))]
    p.Fresh ∧ a.key ≠ b.key ∧
      p.Mixes .initiator pre (2, .act .initiator (.message 1 [2]) (.ok ())) [] news 3 := by
  intro a b p hello news pre
  refine ⟨⟨fun r => ?_, fun _ => rfl⟩, by decide, ?_, ?_, ?_⟩
  · cases r <;> exact ⟨_, {}, 1, rfl⟩
  · decide +kernel
  · exact ⟨_, rfl, rfl⟩
  · exact ⟨_, _, rfl, rfl⟩

/-- A decline gets there too: both have called under the number 1, and refused the other's call. -/
theorem declines_mix :
    let a : Address := .ofKey "alice"
    let b : Address := .ofKey "bob"
    let p : Parley := ⟨fun
      | .initiator => { home := a, table := .new {} 1 }
      | .responder => { home := b, table := .new {} 1 }, fun _ => []⟩
    let call (home peer : Address) : Outgoing :=
      { answer := 1, dialogue := 1, target := 0, route := .towards home peer true, body := .cfp .nothing }
    let no : Outgoing :=
      { answer := 2, dialogue := 1, target := 1, route := .towards a b true, body := .decline }
    let pre : List (Millis × Event) :=
      [(0, .act .initiator (.cfp b .nothing) (.ok ())), (0, .act .responder (.cfp a .nothing) (.ok ())),
        (1, .deliver .initiator (call a b)), (1, .deliver .responder (call b a))]
    let e : Millis × Event := (2, .act .initiator (.decline 1) (.ok ()))
    p.Mixes .initiator pre e [] no 3 ∧
      ∃ d, (p.run (pre ++ [e])).entry .responder 1 = some d ∧ d.role = .initiator := by
  intro a b p call no pre e
  have hfresh : p.Fresh := by
    refine ⟨fun r => ?_, fun _ => rfl⟩
    cases r <;> exact ⟨_, {}, 1, rfl⟩
  have hmixes : p.Mixes .initiator pre e [] no 3 :=
    ⟨by decide +kernel, ⟨_, rfl, rfl⟩, _, _, rfl, rfl⟩
  obtain ⟨-, -, hheld⟩ := mixed_only_late hfresh hmixes
  exact ⟨hmixes, hheld⟩

end Parley

end Negotiation
