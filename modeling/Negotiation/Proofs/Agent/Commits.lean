import Mathlib.Tactic.Set
import Negotiation.Agent.Engine
import Negotiation.Proofs.Table.Entries

/-!
What an engine commits. Opening a dialogue, answering in one, taking a message and applying an event
each put one dialogue in place or leave the dialogues alone. A property of dialogues that new ones
have and that every step keeps (`Lasting`) is therefore had by all dialogues of an engine (`Holds`),
whatever its owner, its application, its peers and its transport do.
-/

namespace Negotiation

namespace Engine

variable {e e' : Engine} {now : Millis} {id : DialogueId}

/-- The engine with a dialogue put in place. -/
def put (e : Engine) (d : Dialogue) : Engine := { e with table := e.table.put d }

/-- The engine with another allocator. -/
def allocating (e : Engine) (a : Allocator) : Engine :=
  { e with table := { e.table with allocator := a } }

theorem get?_put (e : Engine) (d : Dialogue) (id : DialogueId) :
    (e.put d).table.get? id = if d.id = id then some d else e.table.get? id :=
  Table.get?_put ..

/-! ### Messages of the agent itself -/

theorem answering_eq_ok_iff {body : Body} {m : Outgoing} :
    e.answering now id body = .ok (m, e') ↔
    ∃ d s, e.table.get? id = some d ∧ d.state.next? (.send body.step) = some s ∧
      m = outgoing id (d.stamp e.home) body ∧ e' = e.put (d.sent now s) := by
  simp only [answering, Result.bind_eq_ok_iff, Prod.exists, Table.send_eq_ok_iff,
    Dialogue.send_eq_ok_iff, Except.ok.injEq, Prod.mk.injEq]
  constructor
  · rintro ⟨_, _, ⟨d, _, hd, ⟨s, hs, rfl, rfl⟩, rfl⟩, rfl, rfl⟩
    exact ⟨d, s, hd, hs, rfl, rfl⟩
  · rintro ⟨d, s, hd, hs, rfl, rfl⟩
    exact ⟨_, _, ⟨d, _, hd, ⟨s, hs, rfl, rfl⟩, rfl⟩, rfl, rfl⟩

/-- Opening under a number that is found, with a step that can open. -/
theorem opening_ok {peer : Address} {a : Allocator} {s : State} {body : Body}
    (hopen : e.table.openOutbound peer now =
      (.ok id, { e.table with allocator := a }.put (.new id peer .initiator now)))
    (hs : State.idle.next? (.send body.step) = some s) : e.opening now peer body =
      (.ok (outgoing id ((Dialogue.new id peer .initiator now).stamp e.home) body),
        (e.allocating a).put ((Dialogue.new id peer .initiator now).sent now s)) := by
  set d := Dialogue.new id peer .initiator now with hd
  have hg : ({ e.table with allocator := a }.put d).get? id = some d := by
    rw [Table.get?_put, if_pos (show d.id = id from rfl)]
  have hsend : ({ e.table with allocator := a }.put d).send id body.step e.home now =
      .ok (d.stamp e.home, ({ e.table with allocator := a }.put d).put (d.sent now s)) :=
    Table.send_eq_ok_iff.2 ⟨d, _, hg, Dialogue.send_eq_ok_iff.2 ⟨s, hs, rfl, rfl⟩, rfl⟩
  rw [opening, hopen]
  simp only [hsend, Table.put_put _ (show d.id = (d.sent now s).id from rfl)]
  rfl

/-- Opening changes no dialogue, or puts a new one in place that has sent its first step. -/
theorem opening_cases (e : Engine) (now : Millis) (peer : Address) (body : Body) :
    (∃ f a, e.opening now peer body = (.error f, e.allocating a)) ∨
    ∃ id a s, e.table.get? id = none ∧ State.idle.next? (.send body.step) = some s ∧
      e.opening now peer body =
        (.ok (outgoing id ((Dialogue.new id peer .initiator now).stamp e.home) body),
          (e.allocating a).put ((Dialogue.new id peer .initiator now).sent now s)) := by
  rcases e.table.openOutbound_cases peer now with ⟨a, h⟩ | ⟨id, a, hn, h⟩
  · exact .inl ⟨_, a, by rw [opening, h]; rfl⟩
  · cases hs : State.idle.next? (.send body.step) with
    | some s => exact .inr ⟨id, a, s, hn, rfl, opening_ok h hs⟩
    | none =>
      -- the new dialogue is removed again
      set d := Dialogue.new id peer .initiator now with hd
      have hsend : ∃ f, ({ e.table with allocator := a }.put d).send id body.step e.home now =
          .error f := by
        cases hsend : ({ e.table with allocator := a }.put d).send id body.step e.home now with
        | error f => exact ⟨f, rfl⟩
        | ok r =>
          obtain ⟨d₀, d', hd₀, hsend, -⟩ := Table.send_eq_ok_iff.1 hsend
          rw [Table.get?_put, if_pos (show d.id = id from rfl)] at hd₀
          obtain rfl : d = d₀ := Option.some.inj hd₀
          obtain ⟨s, hs', -⟩ := Dialogue.send_eq_ok_iff.1 hsend
          exact absurd (hs.symm.trans hs') (by simp)
      obtain ⟨f, hsend⟩ := hsend
      refine .inl ⟨f, a, ?_⟩
      rw [opening, h]
      simp only [hsend]
      rw [show id = d.id from rfl, Table.remove_put _ (show e.table.get? id = none from hn)]
      rfl

/-! ### Messages received, events and sweeps -/

/-- The dialogue that a message finds: the one of its number, or a new one. -/
def found (e : Engine) (m : Message) (now : Millis) : Dialogue :=
  (e.table.get? m.dialogue).getD (Dialogue.new m.dialogue m.origin .responder now)

theorem receive_eq_ok_iff {m : Message} {d' : Dialogue} :
    e.receive m now = .ok (d', e') ↔
    (e.found m now).receive m (m.route e.home) now = .ok d' ∧ e' = e.put d' ∧
    (e.table.get? m.dialogue = none → m.body.step.opens ∧ ¬ e.table.isFull) := by
  simp only [receive, Result.bind_eq_ok_iff, Prod.exists, Table.receive_eq_ok_iff, Except.ok.injEq,
    Prod.mk.injEq, found]
  cases e.table.get? m.dialogue with
  | some d =>
    simp only [Option.some.injEq, exists_eq_left', reduceCtorEq, false_and, or_false, Option.getD_some,
      false_imp_iff, and_true]
    constructor
    · rintro ⟨_, _, ⟨hd, rfl⟩, rfl, rfl⟩
      exact ⟨hd, rfl⟩
    · rintro ⟨hd, rfl⟩
      exact ⟨_, _, ⟨hd, rfl⟩, rfl, rfl⟩
  | none =>
    simp only [reduceCtorEq, false_and, exists_false, false_or, true_and, Option.getD_none,
      true_imp_iff]
    constructor
    · rintro ⟨_, _, ⟨⟨ho, hf, hd⟩, rfl⟩, rfl, rfl⟩
      exact ⟨hd, rfl, ho, hf⟩
    · rintro ⟨hd, rfl, ho, hf⟩
      exact ⟨_, _, ⟨⟨ho, hf, hd⟩, rfl⟩, rfl, rfl⟩

/-- The engine refuses what its table refuses. -/
theorem receive_eq_error_iff {m : Message} {f : Failure} :
    e.receive m now = .error f ↔ e.table.receive m (m.route e.home) now = .error f := by
  rw [receive]
  cases e.table.receive m (m.route e.home) now with
  | error f' => constructor <;> rintro ⟨⟩ <;> rfl
  | ok r => constructor <;> rintro ⟨⟩

theorem apply_eq_ok_iff {event : Transition} {s : State} :
    e.apply id event now = .ok (s, e') ↔
    ∃ d d', e.table.get? id = some d ∧ d.apply event now = .ok d' ∧ s = d'.state ∧ e' = e.put d' := by
  simp only [apply, Result.bind_eq_ok_iff, Prod.exists, Table.apply_eq_ok_iff, Except.ok.injEq,
    Prod.mk.injEq]
  constructor
  · rintro ⟨_, _, ⟨d, d', hd, ha, rfl, rfl⟩, rfl, rfl⟩
    exact ⟨d, d', hd, ha, rfl, rfl⟩
  · rintro ⟨d, d', hd, ha, rfl, rfl⟩
    exact ⟨_, _, ⟨d, d', hd, ha, rfl, rfl⟩, rfl, rfl⟩

/-- Aborting changes nothing, or applies a dialogue error. -/
theorem abort_cases (e : Engine) (id : DialogueId) (now : Millis) :
    (e.abort id now).2 = e ∨
    ∃ d d', e.table.get? id = some d ∧ d.apply .dialogueError now = .ok d' ∧
      (e.abort id now).2 = e.put d' := by
  rw [abort]
  cases h : e.apply id .dialogueError now with
  | error f => exact .inl rfl
  | ok r =>
    obtain ⟨d, d', hd, ha, -, he⟩ := apply_eq_ok_iff.1 h
    exact .inr ⟨d, d', hd, ha, he⟩

/-- Observing an event changes nothing, or commits the message or the abort that it asks for. -/
theorem observe_engine (e : Engine) (now : Millis) (event : Event) :
    (e.observe now event).2.1 = e ∨
    (∃ m d', event = .agent m ∧ (e.found m now).receive m (m.route e.home) now = .ok d' ∧
      (e.observe now event).2.1 = e.put d') ∨
    (∃ answer id origin d d', event = .dialogueError answer id origin ∧
      e.table.get? id = some d ∧ d.apply .dialogueError now = .ok d' ∧
      (e.observe now event).2.1 = e.put d') := by
  cases event with
  | agent m =>
    rw [observe]
    cases h : e.receive m now with
    | error f => exact .inl rfl
    | ok r =>
      obtain ⟨hd, he, -⟩ := receive_eq_ok_iff.1 h
      exact .inr (.inl ⟨m, r.1, rfl, hd, he⟩)
  | searchResult id agents => exact .inl rfl
  | searchResultWide id items => exact .inl rfl
  | requestError id operation cause detail => exact .inl rfl
  | dialogueError answer id origin =>
    rcases e.abort_cases id now with he | ⟨d, d', hg, ha, he⟩
    · exact .inl he
    · exact .inr (.inr ⟨answer, id, origin, d, d', rfl, hg, ha, he⟩)

theorem get?_sweep (e : Engine) (now : Millis) (id : DialogueId) :
    (e.sweep now).2.table.get? id = (e.table.get? id).bind (Table.swept e.table.limits now) :=
  Table.get?_sweep ..

end Engine

/-! ### Replies -/

namespace Linked

variable {β : Type} {now : Millis} {s : Linked β} {id : DialogueId} {d : Dialogue} {body : Body}
  {st : State}

/-- A reply that is illegal is refused by the engine. -/
theorem reply_of_illegal (T : Transport β) (now : Millis) (hd : s.engine.table.get? id = some d)
    (hs : d.state.next? (.send body.step) = none) :
    s.reply T now id body = (.error (.illegalTransition d.id d.state (.send body.step)), s) := by
  have hanswer : s.engine.answering now id body =
      .error (.illegalTransition d.id d.state (.send body.step)) := by
    rw [Engine.answering, Table.send, Table.get_eq_ok_iff.2 hd, Result.ok_bind, Dialogue.send,
      Dialogue.after, hs]
    rfl
  rw [reply, hanswer]

/-- A reply that is legal is committed and handed over. -/
theorem reply_of_legal (T : Transport β) (now : Millis) (hd : s.engine.table.get? id = some d)
    (hs : d.state.next? (.send body.step) = some st) :
    s.reply T now id body =
      transmit T { s with engine := s.engine.put (d.sent now st) }
        (Engine.outgoing id (d.stamp s.engine.home) body) := by
  have hanswer : s.engine.answering now id body =
      .ok (Engine.outgoing id (d.stamp s.engine.home) body, s.engine.put (d.sent now st)) :=
    Engine.answering_eq_ok_iff.2 ⟨d, st, hd, hs, rfl, rfl⟩
  rw [reply, hanswer]

end Linked

end Negotiation
