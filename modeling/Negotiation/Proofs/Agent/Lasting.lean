import Negotiation.Proofs.Agent.Runs

/-!
Properties that all dialogues of an engine have. A property lasts when every dialogue has it behind
its first step and keeps it with every later one. Main statement: in every run, each engine that does
a deed, and the engine behind the run, hold only dialogues with the property, each under its own
number.
-/

namespace Negotiation

/-- A property that dialogues have behind their first step and keep; `known` are the addresses that
dialogues are begun with. -/
structure Lasting (home : Address) (known : Address → Prop) (P : Dialogue → Prop) : Prop where
  opened : ∀ {id peer step now s}, known peer → State.idle.next? (.send step) = some s →
    P ((Dialogue.new id peer .initiator now).sent now s)
  called : ∀ {m now s}, known m.origin →
    (Dialogue.new m.dialogue m.origin .responder now).Expects m →
    State.idle.next? (.receive m.body.step) = some s →
    P ((Dialogue.new m.dialogue m.origin .responder now).received m (m.route home) now s)
  sent : ∀ {d step now s}, P d → d.state.next? (.send step) = some s → P (d.sent now s)
  received : ∀ {d m now s}, P d → d.Expects m → d.state.next? (.receive m.body.step) = some s →
    P (d.received m (m.route home) now s)
  applied : ∀ {d d' event now}, P d → (∀ step dir, event ≠ .step step dir) →
    d.apply event now = .ok d' → P d'

/-- Every dialogue lasts as a dialogue. -/
theorem lasting_true (home : Address) : Lasting home (fun _ => True) (fun _ => True) where
  opened _ _ := trivial
  called _ _ _ := trivial
  sent _ _ := trivial
  received _ _ _ := trivial
  applied _ _ _ := trivial

/-- Every dialogue of an engine is held under its own number and has the property. -/
def Engine.Holds (P : Dialogue → Prop) (e : Engine) : Prop :=
  ∀ id d, e.table.get? id = some d → d.id = id ∧ P d

/-- A deed that opens dialogues with known addresses only, and applies no step as an event. -/
def Deed.Proper (known : Address → Prop) : Deed → Prop
  | .opening peer _ => known peer
  | .answer _ _ => True
  | .event _ t => ∀ step dir, t ≠ .step step dir

theorem Action.proper_deed (a : Action) : a.deed.Proper fun _ => True := by
  cases a <;> simp [deed, Deed.Proper]

/-- An event that is no message of an address that is not known. -/
def Event.From (known : Address → Prop) (e : Event) : Prop := ∀ m, e = .agent m → known m.origin

namespace Engine

variable {home : Address} {known : Address → Prop} {P : Dialogue → Prop} {e : Engine} {now : Millis}

theorem holds_new {limits : Limits} {start : UInt32} (h : new home limits start = .ok e) :
    e.home = home ∧ e.Holds P := by
  obtain ⟨_, -, he⟩ := Result.bind_eq_ok_iff.1 h
  obtain rfl := Except.ok.inj he
  exact ⟨rfl, fun id d hd => by simp at hd⟩

theorem Holds.put {d : Dialogue} (h : e.Holds P) (hd : P d) : (e.put d).Holds P := by
  intro id d' hg
  rw [get?_put] at hg
  split at hg
  · next hid =>
    obtain rfl := Option.some.inj hg
    exact ⟨hid, hd⟩
  · exact h id d' hg

/-- Where a message goes is kept under its number. -/
theorem Holds.found_id (h : e.Holds P) (m : Message) (now : Millis) : (e.found m now).id = m.dialogue := by
  rw [found]
  cases hg : e.table.get? m.dialogue with
  | none => rfl
  | some d => exact (h _ _ hg).1

theorem Holds.observe (hP : Lasting e.home known P) (h : e.Holds P) {event : Event}
    (hk : event.From known) : (e.observe now event).2.1.Holds P := by
  rcases e.observe_engine now event with he | ⟨m, d', rfl, hr, he⟩ | ⟨_, id, _, d, d', rfl, hg, ha, he⟩ <;>
    rw [he]
  · exact h
  · obtain ⟨hx, s, hs, rfl⟩ := Dialogue.receive_eq_ok_iff.1 hr
    refine h.put ?_
    rw [found] at hx hs ⊢
    cases hg : e.table.get? m.dialogue with
    | none =>
      rw [hg] at hx hs
      exact hP.called (hk m rfl) hx hs
    | some d =>
      rw [hg] at hx hs
      exact hP.received (h _ _ hg).2 hx hs
  · exact h.put (hP.applied (h _ _ hg).2 (by simp) ha)

theorem observe_home (e : Engine) (now : Millis) (event : Event) :
    (e.observe now event).2.1.home = e.home := by
  rcases e.observe_engine now event with he | ⟨_, _, _, _, he⟩ | ⟨_, _, _, _, _, _, _, _, he⟩ <;>
    rw [he] <;> rfl

theorem Holds.sweep (hP : Lasting home known P) (h : e.Holds P) : (e.sweep now).2.Holds P := by
  intro id d' hg
  rw [get?_sweep] at hg
  obtain ⟨d, hd, hs⟩ := Option.bind_eq_some_iff.1 hg
  obtain ⟨hid, hp⟩ := h id d hd
  rcases Table.swept_eq_some hs with rfl | ⟨-, ha⟩
  · exact ⟨hid, hp⟩
  · exact ⟨(Dialogue.apply_id ha).trans hid, hP.applied hp (by simp) ha⟩

end Engine

namespace Linked

variable {β σ : Type} {known : Address → Prop} {P : Dialogue → Prop} {T : Transport β} {now : Millis}

theorem engine_of_transmit {s s' : Linked β} {m : Outgoing} {r : Except Failure Unit}
    (h : s.transmit T m = (r, s')) : s'.engine = s.engine :=
  congrArg (·.2.engine) h.symm

/-- Opening leaves no trace but in the allocator, or succeeds and leaves a new dialogue. -/
theorem openDialogue_engine (T : Transport β) (now : Millis) (s : Linked β) (peer : Address)
    (body : Body) : (∃ a, (s.openDialogue T now peer body).2.engine = s.engine.allocating a) ∨
    ∃ id a st, s.engine.table.get? id = none ∧ State.idle.next? (.send body.step) = some st ∧
      (s.openDialogue T now peer body).1 = .ok id ∧ (s.openDialogue T now peer body).2.engine =
        (s.engine.allocating a).put ((Dialogue.new id peer .initiator now).sent now st) := by
  rw [openDialogue]
  rcases s.engine.opening_cases now peer body with ⟨f, a, h⟩ | ⟨id, a, st, hn, hst, h⟩ <;> rw [h]
  · exact .inl ⟨a, rfl⟩
  · simp only
    split
    · next ht => exact .inr ⟨id, a, st, hn, hst, rfl, engine_of_transmit ht⟩
    · next f s' ht =>
      refine .inl ⟨a, ?_⟩
      simp only [withTable, engine_of_transmit ht]
      have hrem := Table.remove_put { s.engine.table with allocator := a }
        (d := (Dialogue.new id peer .initiator now).sent now st) hn
      exact congrArg (fun t => { s.engine with table := t }) hrem

/-- What a deed leaves of the engine: at most one dialogue is new or put in place of another. -/
theorem carryOut_engine (T : Transport β) (now : Millis) (s : Linked β) (d : Deed) :
    (∃ a, (s.carryOut T now d).2.engine = s.engine.allocating a) ∨
    (∃ peer body id a st, d = .opening peer body ∧ s.engine.table.get? id = none ∧
      State.idle.next? (.send body.step) = some st ∧ (s.carryOut T now d).2.engine =
        (s.engine.allocating a).put ((Dialogue.new id peer .initiator now).sent now st)) ∨
    (∃ id body d₀ st, d = .answer id body ∧ s.engine.table.get? id = some d₀ ∧
      d₀.state.next? (.send body.step) = some st ∧
      (s.carryOut T now d).2.engine = s.engine.put (d₀.sent now st)) ∨
    (∃ id t d₀ d', d = .event id t ∧ s.engine.table.get? id = some d₀ ∧ d₀.apply t now = .ok d' ∧
      (s.carryOut T now d).2.engine = s.engine.put d') := by
  have hsame : s.engine = s.engine.allocating s.engine.table.allocator := rfl
  cases d with
  | opening peer body =>
    rcases s.openDialogue_engine T now peer body with ⟨a, h⟩ | ⟨id, a, st, hn, hst, -, h⟩
    · exact .inl ⟨a, h⟩
    · exact .inr (.inl ⟨peer, body, id, a, st, rfl, hn, hst, h⟩)
  | answer id body =>
    rw [carryOut, reply]
    cases h : s.engine.answering now id body with
    | error f => exact .inl ⟨_, hsame⟩
    | ok r =>
      obtain ⟨d₀, st, hg, hst, -, he⟩ := Engine.answering_eq_ok_iff.1 h
      exact .inr (.inr (.inl ⟨id, body, d₀, st, rfl, hg, hst, he⟩))
  | event id t =>
    rw [carryOut, apply]
    cases h : s.engine.apply id t now with
    | error f => exact .inl ⟨_, hsame⟩
    | ok r =>
      obtain ⟨d₀, d', hg, ha, -, he⟩ := Engine.apply_eq_ok_iff.1 h
      exact .inr (.inr (.inr ⟨id, t, d₀, d', rfl, hg, ha, he⟩))

theorem carryOut_home (T : Transport β) (now : Millis) (s : Linked β) (d : Deed) :
    (s.carryOut T now d).2.engine.home = s.engine.home := by
  rcases carryOut_engine T now s d with ⟨a, h⟩ | ⟨_, _, _, _, _, _, _, _, h⟩ |
    ⟨_, _, _, _, _, _, _, h⟩ | ⟨_, _, _, _, _, _, _, h⟩ <;> rw [h] <;> rfl

theorem holds_carryOut {s : Linked β} {d : Deed} (hP : Lasting s.engine.home known P)
    (hd : d.Proper known) (h : s.engine.Holds P) : (s.carryOut T now d).2.engine.Holds P := by
  rcases carryOut_engine T now s d with ⟨a, he⟩ | ⟨peer, body, id, a, st, rfl, hn, hst, he⟩ |
    ⟨id, body, d₀, st, rfl, hg, hst, he⟩ | ⟨id, t, d₀, d', rfl, hg, ha, he⟩ <;> rw [he]
  · exact h
  · exact Engine.Holds.put (e := s.engine.allocating a) h (hP.opened hd hst)
  · exact h.put (hP.sent (h _ _ hg).2 hst)
  · exact h.put (hP.applied (h _ _ hg).2 hd ha)

/-- A property that lasts is had by all dialogues before every deed of a run and behind the run. -/
theorem holds_of_run {h : Handler σ} {bound : Nat} {s : Linked β} {m : σ} {cs : List (Millis × Call)}
    (hP : Lasting s.engine.home known P) (hs : s.engine.Holds P)
    (hknown : ∀ now e, (now, .take e) ∈ cs → e.From known)
    (hok : ∀ p ∈ deeds T h bound s m cs, p.2.2.Proper known) :
    (∀ p ∈ deeds T h bound s m cs, p.2.1.engine.home = s.engine.home ∧ p.2.1.engine.Holds P) ∧
    ∀ s' m', calls T h bound s m cs = some (s', m') →
      s'.engine.home = s.engine.home ∧ s'.engine.Holds P := by
  refine deeds_keep (I := fun s' => s'.engine.home = s.engine.home ∧ s'.engine.Holds P)
    ?_ ?_ ?_ ⟨rfl, hs⟩ hknown hok
  · intro now s' d hd ⟨hhome, hh⟩
    exact ⟨(carryOut_home T now s' d).trans hhome, holds_carryOut (hhome ▸ hP) hd hh⟩
  · intro now s' e he ⟨hhome, hh⟩
    exact ⟨(Engine.observe_home ..).trans hhome, hh.observe (hhome ▸ hP) he⟩
  · intro now s' ⟨hhome, hh⟩
    exact ⟨hhome, hh.sweep (hhome ▸ hP)⟩

end Linked

end Negotiation
