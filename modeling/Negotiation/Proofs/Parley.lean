import Mathlib.Data.List.Induction
import Negotiation.Proofs.Agent.Lasting

/-!
Two engines that talk over a network on which nothing is certain. Every message that an engine has
sent stays on the network: it may be delivered to the other engine at any time, any number of times,
or never. Other agents may send the engines anything but in the name of the other one, and what owners
and applications do is not restricted. Main statement (`step_turn`): an event concerns one side, and
does at most one of seven things to the dialogue of a number.
-/

namespace Negotiation

/-- The other of the two agents. -/
def Role.other : Role → Role
  | .initiator => .responder
  | .responder => .initiator

/-- A transport with a verdict on every request, which keeps the messages that it takes. -/
def Transport.keeping (verdict : Except TransportError Unit) : Transport (List Outgoing) :=
  ⟨fun kept request =>
    match verdict, request with
    | .ok (), .send m => (.ok (), kept ++ [m])
    | _, _ => (verdict, kept)⟩

/-- Two engines and the messages that each of them has sent. -/
structure Parley where
  engine : Role → Engine
  sent : Role → List Outgoing

namespace Parley

/-- Something that happens to one of the engines. -/
inductive Event where
  /-- The engine's owner or application acts; the transport takes the message or refuses it. -/
  | act (side : Role) (a : Action) (verdict : Except TransportError Unit)
  /-- The engine's owner opens a conversation. -/
  | greet (side : Role) (peer : Address) (content : Bytes) (verdict : Except TransportError Unit)
  /-- A message that the engine of `sender` has sent reaches the other engine. -/
  | deliver (sender : Role) (m : Outgoing)
  /-- Anything else reaches an engine, but no message in the name of the other. -/
  | meet (side : Role) (e : Negotiation.Event)
  /-- The engine sweeps its table. -/
  | sweep (side : Role)

/-- The address of an engine's agent. -/
def home (p : Parley) (r : Role) : Address := (p.engine r).home

/-- The dialogue of a number on one side. -/
def entry (p : Parley) (r : Role) (id : DialogueId) : Option Dialogue := (p.engine r).table.get? id

/-- The messages of a dialogue that one side has sent. -/
def words (p : Parley) (r : Role) (id : DialogueId) : List Outgoing :=
  (p.sent r).filter (·.dialogue = id)

/-- One side and what it has sent so far. -/
def side (p : Parley) (r : Role) : Linked (List Outgoing) := ⟨p.engine r, p.sent r⟩

/-- The parley with one side in another state. -/
def put (p : Parley) (r : Role) (s : Linked (List Outgoing)) : Parley where
  engine r' := if r' = r then s.engine else p.engine r'
  sent r' := if r' = r then s.link else p.sent r'

/-- Whether an event is no message in the name of an agent. -/
def notFrom (a : Address) : Negotiation.Event → Bool
  | .agent m => !m.origin.sameAgent a
  | _ => true

/-- What an event does. -/
def step (p : Parley) (now : Millis) : Event → Parley
  | .act r a verdict => p.put r ((p.side r).execute (.keeping verdict) now a).2
  | .greet r peer content verdict =>
    p.put r ((p.side r).openDialogue (.keeping verdict) now peer (.message content)).2
  | .deliver r m =>
    if m ∈ p.sent r then
      p.put r.other ⟨((p.engine r.other).observe now (.agent (m.delivered (p.home r)))).2.1, p.sent r.other⟩
    else p
  | .meet r e =>
    if notFrom (p.home r.other) e then p.put r ⟨((p.engine r).observe now e).2.1, p.sent r⟩ else p
  | .sweep r => p.put r ⟨((p.engine r).sweep now).2, p.sent r⟩

/-- What some events do. -/
def run (p : Parley) (es : List (Millis × Event)) : Parley := es.foldl (fun p e => p.step e.1 e.2) p

/-- Both engines are new and nothing has been sent. -/
structure Fresh (p : Parley) : Prop where
  engine : ∀ r, ∃ home limits start, Engine.new home limits start = .ok (p.engine r)
  sent : ∀ r, p.sent r = []

/-- A parley that has come about from a fresh one. -/
def Reachable (p : Parley) : Prop := ∃ q es, Fresh q ∧ p = q.run es

/-- What an event can do to the dialogue of a number on one side. -/
inductive Turn (p : Parley) (r : Role) (id : DialogueId) (now : Millis) (e : Event) (p' : Parley) : Prop
  /-- Nothing. -/
  | still (he : p'.entry r id = p.entry r id) (hw : p'.words r id = p.words r id)
  /-- The side opens a dialogue under the number. -/
  | begun (peer : Address) (body : Body) (s : State) (hd : p.entry r id = none)
      (hs : State.idle.next? (.send body.step) = some s)
      (he : p'.entry r id = some ((Dialogue.new id peer .initiator now).sent now s))
  /-- The side sends a step; the transport takes the message or not. -/
  | answered (d : Dialogue) (body : Body) (s : State) (hd : p.entry r id = some d)
      (hs : d.state.next? (.send body.step) = some s) (he : p'.entry r id = some (d.sent now s))
      (hw : p'.words r id = p.words r id ∨
        p'.words r id = p.words r id ++ [Engine.outgoing id (d.stamp (p.home r)) body])
  /-- The side takes a message of the other. -/
  | heard (m : Outgoing) (d' : Dialogue) (hev : e = .deliver r.other m) (hm : m ∈ p.words r.other id)
      (hr : ((p.engine r).found (m.delivered (p.home r.other)) now).receive
        (m.delivered (p.home r.other)) ((m.delivered (p.home r.other)).route (p.home r)) now = .ok d')
      (he : p'.entry r id = some d') (hw : p'.words r id = p.words r id)
  /-- The side takes a message of somebody else. -/
  | met (m : Message) (d' : Dialogue) (hid : m.dialogue = id)
      (hm : ¬ m.origin.sameAgent (p.home r.other))
      (hr : ((p.engine r).found m now).receive m (m.route (p.home r)) now = .ok d')
      (he : p'.entry r id = some d')
  /-- An event that sends nothing closes the dialogue. -/
  | closed (d d' : Dialogue) (t : Transition) (ht : ∀ step dir, t ≠ .step step dir)
      (hd : p.entry r id = some d) (ha : d.apply t now = .ok d') (he : p'.entry r id = some d')
      (hw : p'.words r id = p.words r id)
  /-- The dialogue is evicted. -/
  | gone (hd : (p.entry r id).isSome) (he : p'.entry r id = none)

/-! ### One side -/

section Put

variable (p : Parley) (r : Role) (s : Linked (List Outgoing)) (id : DialogueId)

@[simp] theorem put_entry : (p.put r s).entry r id = s.engine.table.get? id := by
  rw [entry, put]
  simp only [if_pos]

@[simp] theorem put_words : (p.put r s).words r id = s.link.filter (·.dialogue = id) := by
  rw [words, put]
  simp only [if_pos]

theorem put_entry_other : (p.put r s).entry r.other id = p.entry r.other id := by
  cases r <;> rfl

theorem put_words_other : (p.put r s).words r.other id = p.words r.other id := by
  cases r <;> rfl

end Put

end Parley

namespace Linked

variable {s : Linked (List Outgoing)} {now : Millis}

/-- A transport that keeps what it takes: an opening leaves no dialogue and no message, or both. -/
theorem openDialogue_keeping (s : Linked (List Outgoing)) (verdict : Except TransportError Unit)
    (now : Millis) (peer : Address) (body : Body) :
    (∃ f a, s.openDialogue (.keeping verdict) now peer body =
      (.error f, ⟨s.engine.allocating a, s.link⟩)) ∨
    ∃ id a st, s.engine.table.get? id = none ∧ State.idle.next? (.send body.step) = some st ∧
      s.openDialogue (.keeping verdict) now peer body =
        (.ok id, ⟨(s.engine.allocating a).put ((Dialogue.new id peer .initiator now).sent now st),
          s.link ++ [Engine.outgoing id
            ((Dialogue.new id peer .initiator now).stamp s.engine.home) body]⟩) := by
  rw [openDialogue]
  rcases s.engine.opening_cases now peer body with ⟨f, a, h⟩ | ⟨id, a, st, hn, hst, h⟩ <;> rw [h]
  · exact .inl ⟨f, a, rfl⟩
  · cases verdict with
    | ok u => exact .inr ⟨id, a, st, hn, hst, rfl⟩
    | error f =>
      refine .inl ⟨.transport f, a, ?_⟩
      have hrem := Table.remove_put { s.engine.table with allocator := a }
        (d := (Dialogue.new id peer .initiator now).sent now st) hn
      exact congrArg (fun t => (Except.error (Failure.transport f),
        (⟨{ s.engine with table := t }, s.link⟩ : Linked (List Outgoing)))) hrem

/-- An answer is committed, whether the transport takes it or not. -/
theorem reply_keeping (s : Linked (List Outgoing)) (verdict : Except TransportError Unit)
    (now : Millis) (id : DialogueId) (body : Body) :
    (s.reply (.keeping verdict) now id body).2 = s ∨
    ∃ d st sent, s.engine.table.get? id = some d ∧ d.state.next? (.send body.step) = some st ∧
      (s.reply (.keeping verdict) now id body).2 = ⟨s.engine.put (d.sent now st), sent⟩ ∧
      (sent = s.link ∨ sent = s.link ++ [Engine.outgoing id (d.stamp s.engine.home) body]) := by
  rw [reply]
  cases h : s.engine.answering now id body with
  | error f => exact .inl rfl
  | ok r =>
    obtain ⟨m, e⟩ := r
    obtain ⟨d, st, hg, hst, rfl, rfl⟩ := Engine.answering_eq_ok_iff.1 h
    cases verdict with
    | ok u => exact .inr ⟨d, st, _, hg, hst, rfl, .inr rfl⟩
    | error f => exact .inr ⟨d, st, _, hg, hst, rfl, .inl rfl⟩

end Linked

namespace Parley

variable {p : Parley} {r : Role} {id : DialogueId} {now : Millis}

theorem filter_append_singleton (l : List Outgoing) (m : Outgoing) (id : DialogueId) :
    (l ++ [m]).filter (·.dialogue = id) =
      if m.dialogue = id then l.filter (·.dialogue = id) ++ [m] else l.filter (·.dialogue = id) := by
  rw [List.filter_append, List.filter_cons, List.filter_nil]
  by_cases h : m.dialogue = id <;> simp [h]

/-- A deed on one side. -/
theorem turn_carryOut (hk : (p.engine r).Holds fun _ => True) (verdict : Except TransportError Unit)
    {d : Deed} (hd : d.Proper fun _ => True) (e : Event) :
    p.Turn r id now e (p.put r ((p.side r).carryOut (.keeping verdict) now d).2) := by
  cases d with
  | opening peer body =>
    rcases (p.side r).openDialogue_keeping verdict now peer body with
      ⟨f, a, h⟩ | ⟨id', a, st, hn, hst, h⟩
    · simp only [Linked.carryOut, Linked.done, h]
      exact .still (by rw [put_entry]; rfl) (by rw [put_words]; rfl)
    · simp only [Linked.carryOut, Linked.done, h]
      by_cases hid : id' = id
      · subst hid
        refine .begun peer body st hn hst ?_
        rw [put_entry, Engine.get?_put]
        exact if_pos rfl
      · refine .still ?_ ?_
        · rw [put_entry, Engine.get?_put]
          exact if_neg hid
        · rw [put_words, filter_append_singleton]
          exact if_neg hid
  | answer id' body =>
    rw [Linked.carryOut]
    rcases (p.side r).reply_keeping verdict now id' body with h | ⟨d, st, sent, hg, hst, h, hsent⟩ <;> rw [h]
    · exact .still (by rw [put_entry]; rfl) (by rw [put_words]; rfl)
    · have hdid : d.id = id' := (hk id' d hg).1
      by_cases hid : id' = id
      · subst hid
        refine .answered d body st hg hst ?_ ?_
        · rw [put_entry, Engine.get?_put]
          exact if_pos hdid
        · rw [put_words]
          rcases hsent with rfl | rfl
          · exact .inl rfl
          · rw [filter_append_singleton]
            exact .inr (if_pos rfl)
      · refine .still ?_ ?_
        · rw [put_entry, Engine.get?_put]
          exact if_neg fun h => hid (hdid.symm.trans h)
        · rw [put_words]
          rcases hsent with rfl | rfl
          · rfl
          · rw [filter_append_singleton]
            exact if_neg hid
  | event id' t =>
    simp only [Linked.carryOut, Linked.done, Linked.apply]
    cases h : (p.side r).engine.apply id' t now with
    | error f => exact .still (by rw [put_entry]; rfl) (by rw [put_words]; rfl)
    | ok r' =>
      obtain ⟨d, d', hg, ha, -, he⟩ := Engine.apply_eq_ok_iff.1 h
      have hdid : d'.id = id' := (Dialogue.apply_id ha).trans (hk id' d hg).1
      have hw : (p.put r ⟨r'.2, (p.side r).link⟩).words r id = p.words r id := by
        rw [put_words]
        rfl
      by_cases hid : id' = id
      · subst hid
        refine .closed d d' t hd hg ha ?_ hw
        simp only [put_entry, he, Engine.get?_put]
        exact if_pos hdid
      · refine .still ?_ hw
        simp only [put_entry, he, Engine.get?_put]
        exact if_neg fun h => hid (hdid.symm.trans h)

/-- An event that reaches one side: it commits a message, closes a dialogue, or leaves things alone. -/
theorem observe_cases (hk : (p.engine r).Holds fun _ => True) (id : DialogueId) (now : Millis)
    (ev : Negotiation.Event) {p' : Parley}
    (hp : p' = p.put r ⟨((p.engine r).observe now ev).2.1, p.sent r⟩) :
    p'.words r id = p.words r id ∧ (p'.entry r id = p.entry r id ∨
      (∃ m d', ev = .agent m ∧ m.dialogue = id ∧
        ((p.engine r).found m now).receive m (m.route (p.home r)) now = .ok d' ∧
        p'.entry r id = some d') ∨
      ∃ d d', p.entry r id = some d ∧ d.apply .dialogueError now = .ok d' ∧
        p'.entry r id = some d') := by
  refine ⟨by rw [hp, put_words]; rfl, ?_⟩
  rw [show p'.entry r id = ((p.engine r).observe now ev).2.1.table.get? id by rw [hp, put_entry]]
  rcases (p.engine r).observe_engine now ev with
    he | ⟨m, d', rfl, hr, he⟩ | ⟨_, id', _, d, d', rfl, hg, ha, he⟩ <;> rw [he]
  · exact .inl rfl
  · obtain ⟨-, s, -, hd'⟩ := Dialogue.receive_eq_ok_iff.1 hr
    have hid : d'.id = m.dialogue := hd' ▸ hk.found_id m now
    rw [Engine.get?_put, hid]
    split
    · next h => exact .inr (.inl ⟨m, d', rfl, h, hr, rfl⟩)
    · exact .inl rfl
  · have hid : d'.id = id' := (Dialogue.apply_id ha).trans (hk _ _ hg).1
    rw [Engine.get?_put, hid]
    split
    · next h => exact .inr (.inr ⟨d, d', h ▸ hg, ha, rfl⟩)
    · exact .inl rfl

/-- A sweep of one side. -/
theorem turn_sweep (p : Parley) (r : Role) (id : DialogueId) (now : Millis) (e : Event) :
    p.Turn r id now e (p.put r ⟨((p.engine r).sweep now).2, p.sent r⟩) := by
  have hw : (p.put r ⟨((p.engine r).sweep now).2, p.sent r⟩).words r id = p.words r id := by
    rw [put_words]
    rfl
  have he : (p.put r ⟨((p.engine r).sweep now).2, p.sent r⟩).entry r id =
      (p.entry r id).bind (Table.swept (p.engine r).table.limits now) := by
    rw [put_entry, Engine.get?_sweep]
    rfl
  cases hd : p.entry r id with
  | none => exact .still (by rw [he, hd]; rfl) hw
  | some d =>
    rw [hd, Option.bind_some] at he
    cases hs : Table.swept (p.engine r).table.limits now d with
    | none => exact .gone (by rw [hd]; rfl) (he.trans hs)
    | some d' =>
      rcases Table.swept_eq_some hs with rfl | ⟨-, ha⟩
      · exact .still (he.trans (hs.trans hd.symm)) hw
      · exact .closed d d' .timeout (by simp) hd ha (he.trans hs) hw

/-! ### Both sides -/

/-- The side that an event concerns. -/
def Event.side : Event → Role
  | .act r _ _ => r
  | .greet r _ _ _ => r
  | .deliver r _ => r.other
  | .meet r _ => r
  | .sweep r => r

@[simp] theorem other_other (r : Role) : r.other.other = r := by
  cases r <;> rfl

theorem step_side (p : Parley) (now : Millis) (e : Event) :
    p.step now e = p ∨ ∃ s, p.step now e = p.put e.side s := by
  cases e with
  | act r a verdict => exact .inr ⟨_, rfl⟩
  | greet r peer content verdict => exact .inr ⟨_, rfl⟩
  | deliver r m =>
    rw [step]
    split
    · exact .inr ⟨_, rfl⟩
    · exact .inl rfl
  | meet r ev =>
    rw [step]
    split
    · exact .inr ⟨_, rfl⟩
    · exact .inl rfl
  | sweep r => exact .inr ⟨_, rfl⟩

/-- STEP: an event does one of seven things to the dialogue of a number on the side that it concerns,
    and nothing on the other side. -/
theorem step_turn (hk : ∀ r, (p.engine r).Holds fun _ => True) (id : DialogueId) (now : Millis)
    (e : Event) : p.Turn e.side id now e (p.step now e) ∧
      (p.step now e).entry e.side.other id = p.entry e.side.other id ∧
      (p.step now e).words e.side.other id = p.words e.side.other id := by
  refine ⟨?_, ?_⟩
  · cases e with
    | act r a verdict =>
      have ht : p.Turn r id now _ (p.put r _) :=
        turn_carryOut (hk r) verdict a.proper_deed (.act r a verdict)
      rwa [← Linked.execute_eq] at ht
    | greet r peer content verdict =>
      exact turn_carryOut (hk r) verdict (d := .opening peer (.message content)) trivial _
    | deliver r m =>
      rw [step]
      split
      · next hm =>
        obtain ⟨hw, h⟩ := observe_cases (hk r.other) id now (.agent (m.delivered (p.home r))) rfl
        rcases h with h | ⟨m', d', hm', hid, hr, he⟩ | ⟨d, d', hd, ha, he⟩
        · exact .still h hw
        · obtain rfl := Negotiation.Event.agent.inj hm'
          have hmem : m ∈ p.words r id := List.mem_filter.2 ⟨hm, decide_eq_true hid⟩
          have hrr : r.other.other = r := other_other r
          exact .heard m d' (by rw [Event.side, hrr]) (by rwa [Event.side, hrr])
            (by rw [Event.side, hrr]; exact hr) he hw
        · exact .closed d d' .dialogueError (by simp) hd ha he hw
      · exact .still rfl rfl
    | meet r ev =>
      rw [step]
      split
      · next hn =>
        obtain ⟨hw, h⟩ := observe_cases (hk r) id now ev rfl
        rcases h with h | ⟨m, d', rfl, hid, hr, he⟩ | ⟨d, d', hd, ha, he⟩
        · exact .still h hw
        · exact .met m d' hid (by simpa [notFrom, Event.side] using hn) hr he
        · exact .closed d d' .dialogueError (by simp) hd ha he hw
      · exact .still rfl rfl
    | sweep r => exact p.turn_sweep r id now _
  · rcases p.step_side now e with h | ⟨s, h⟩ <;> rw [h]
    · exact ⟨rfl, rfl⟩
    · exact ⟨put_entry_other .., put_words_other ..⟩

/-! ### Runs -/

/-- What one side keeps, whatever happens to it. -/
theorem step_keeps {I : Role → Engine → Prop} (p : Parley) (now : Millis) (e : Event)
    (hdeed : ∀ r v d, d.Proper (fun _ => True) → I r (p.engine r) →
      I r ((p.side r).carryOut (.keeping v) now d).2.engine)
    (hobserve : ∀ r ev, I r (p.engine r) → I r ((p.engine r).observe now ev).2.1)
    (hsweep : ∀ r, I r (p.engine r) → I r ((p.engine r).sweep now).2)
    (h : ∀ r, I r (p.engine r)) (r : Role) : I r ((p.step now e).engine r) := by
  have hput : ∀ {r' s}, I r' s.engine → I r ((p.put r' s).engine r) := by
    intro r' s hs
    rw [put]
    simp only
    split
    · next hr => exact hr ▸ hs
    · exact h r
  cases e with
  | act r' a v =>
    exact hput (Linked.execute_eq .. ▸ hdeed r' v a.deed a.proper_deed (h r'))
  | greet r' peer content v => exact hput (hdeed r' v (.opening peer (.message content)) trivial (h r'))
  | deliver r' m =>
    rw [step]
    split
    · exact hput (hobserve _ _ (h _))
    · exact h r
  | meet r' ev =>
    rw [step]
    split
    · exact hput (hobserve _ _ (h _))
    · exact h r
  | sweep r' => exact hput (hsweep _ (h _))

theorem step_home (p : Parley) (now : Millis) (e : Event) (r : Role) :
    (p.step now e).home r = p.home r :=
  p.step_keeps now e (I := fun r e => e.home = p.home r) (fun _ _ _ _ h => (Linked.carryOut_home ..).trans h)
    (fun _ _ h => (Engine.observe_home ..).trans h) (fun _ h => h) (fun _ => rfl) r

theorem step_holds {p : Parley} (hk : ∀ r, (p.engine r).Holds fun _ => True) (now : Millis) (e : Event)
    (r : Role) : ((p.step now e).engine r).Holds fun _ => True :=
  p.step_keeps now e (I := fun _ e => e.Holds fun _ => True)
    (fun r _ _ hd h => Linked.holds_carryOut (s := p.side r) (lasting_true _) hd h)
    (fun _ _ h => h.observe (lasting_true _) fun _ _ => trivial)
    (fun r h => h.sweep (lasting_true (p.home r))) hk r

theorem run_append (p : Parley) (es es' : List (Millis × Event)) :
    p.run (es ++ es') = (p.run es).run es' :=
  List.foldl_append ..

theorem run_concat (p : Parley) (es : List (Millis × Event)) (e : Millis × Event) :
    p.run (es ++ [e]) = (p.run es).step e.1 e.2 :=
  run_append p es [e]

theorem run_holds {p : Parley} (hk : ∀ r, (p.engine r).Holds fun _ => True)
    (es : List (Millis × Event)) : ∀ r, ((p.run es).engine r).Holds fun _ => True := by
  induction es using List.reverseRecOn with
  | nil => exact hk
  | append_singleton es e ih =>
    rw [run_concat]
    exact step_holds ih e.1 e.2

theorem Reachable.holds (h : Reachable p) (r : Role) : (p.engine r).Holds fun _ => True := by
  obtain ⟨q, es, hq, rfl⟩ := h
  refine run_holds (fun r => ?_) es r
  obtain ⟨_, _, _, hnew⟩ := hq.engine r
  exact (Engine.holds_new hnew).2

/-- A property that a run brings about is brought about by one of its events. -/
theorem exists_moment {P : Parley → Prop} {p : Parley} {es : List (Millis × Event)} (hp : ¬ P p)
    (hes : P (p.run es)) : ∃ pre e, pre ++ [e] <+: es ∧ ¬ P (p.run pre) ∧ P (p.run (pre ++ [e])) := by
  induction es using List.reverseRecOn with
  | nil => exact absurd hes hp
  | append_singleton es e ih =>
    by_cases h : P (p.run es)
    · obtain ⟨pre, e', hpre, h'⟩ := ih h
      exact ⟨pre, e', hpre.trans (List.prefix_append ..), h'⟩
    · exact ⟨es, e, List.prefix_rfl, h, hes⟩

/-- What holds of each event with the events before it. -/
theorem forall_moments {α : Type} {es : List α} {P : List α → α → Prop}
    (h : ∀ i (hi : i < es.length), P (es.take i) es[i]) (pre : List α) (e : α)
    (hpre : pre ++ [e] <+: es) : P pre e := by
  obtain ⟨post, rfl⟩ := hpre
  have := h pre.length (by simp)
  simpa using this

/-- What holds of the beginnings of a list by their lengths holds of each. -/
theorem forall_prefixes {α : Type} {es : List α} {P : List α → Prop}
    (h : ∀ i < es.length + 1, P (es.take i)) (pre : List α) (hpre : pre <+: es) : P pre := by
  obtain ⟨post, rfl⟩ := hpre
  have := h pre.length (by simp only [List.length_append]; omega)
  simpa using this

end Parley

end Negotiation
