import Mathlib.Algebra.GroupWithZero.Nat
import Negotiation.Proofs.Correspondence

/-!
Two sides that take turns. The table of transitions is symmetric: what one side may send, the other may
receive in the mirror image of its state, and they come to mirror images again. Main statement
(`mirrored_of_orderly`): when each message is taken before either side sends again, every message is
accepted, and behind each the two ends of the dialogue are mirror images with the same numbers. That the
other side's table is not full is enough when nothing waits for it (`mirrored_of_idle`).
-/

namespace Negotiation

namespace State

/-- The state of the other side. -/
def mirror : State → State
  | .cfpSent => .cfpReceived
  | .cfpReceived => .cfpSent
  | .proposalSent => .proposalReceived
  | .proposalReceived => .proposalSent
  | s => s

/-- SYMMETRY: a step leads from the mirror image of a state to that of the state it leads to. -/
theorem next?_mirror (s : State) (step : Step) (dir : Direction) :
    s.mirror.next? (.step step dir.reversed) = (s.next? (.step step dir)).map mirror := by
  cases s <;> cases step <;> cases dir <;> rfl

@[simp] theorem mirror_mirror (s : State) : s.mirror.mirror = s := by
  cases s <;> rfl

/-- The states of the two sides of a dialogue between two steps, the initiator's first. -/
inductive Dual : State → State → Prop
  | called : Dual .cfpSent .cfpReceived
  | proposed : Dual .proposalReceived .proposalSent
  | accepted : Dual .accepted .accepted
  | messaging : Dual .messaging .messaging
  | declined : Dual (.closed .declined) (.closed .declined)

theorem Dual.mirror {s s' : State} (h : Dual s s') : s' = s.mirror := by
  cases h <;> rfl

/-- A step of the initiator leads to states that are dual again. -/
theorem Dual.next {s s' u : State} {step : Step} {dir : Direction} (h : Dual s s')
    (hs : s.next? (.step step dir) = some u) : Dual u u.mirror := by
  cases h <;> cases step <;> cases dir <;> simp [next?, afterStep?] at hs <;> subst hs <;> constructor

/-- The first step leads to dual states. -/
theorem dual_of_idle {u : State} {step : Step} (hs : State.idle.next? (.send step) = some u) :
    Dual u u.mirror := by
  cases step <;> simp [next?, afterStep?, Transition.send] at hs <;> subst hs <;> constructor

/-- Dual states, that of one side first. -/
def Pairs : Role → State → State → Prop
  | .initiator, s, s' => Dual s s'
  | .responder, s, s' => Dual s' s

theorem pairs_other {r : Role} {s s' : State} : Pairs r.other s s' ↔ Pairs r s' s := by
  cases r <;> rfl

theorem pairs_iff (r : Role) (s : Role → State) :
    Pairs r (s r) (s r.other) ↔ Dual (s .initiator) (s .responder) := by
  cases r <;> rfl

/-- What one side may send, the other may receive, and then their states are dual again. -/
theorem Pairs.next {r : Role} {s s' u : State} {step : Step} (h : Pairs r s s')
    (hs : s.next? (.send step) = some u) :
    s'.next? (.receive step) = some u.mirror ∧ Pairs r u u.mirror := by
  have hmirror : s.mirror.next? (.receive step) = some u.mirror := by
    rw [show s.mirror.next? (.receive step) = _ from next?_mirror s step .outbound]
    exact congrArg (Option.map mirror) hs
  cases r with
  | initiator =>
    have h : Dual s s' := h
    exact ⟨h.mirror ▸ hmirror, h.next hs⟩
  | responder =>
    have h : Dual s' s := h
    have hs' : s'.next? (.receive step) = some u.mirror := by
      rw [h.mirror, mirror_mirror] at hmirror
      exact hmirror
    have hdual : Dual u.mirror u.mirror.mirror := h.next hs'
    rw [mirror_mirror] at hdual
    exact ⟨hs', hdual⟩

end State

open State (Dual Pairs)

/-- Whether a line is of a message that is sent. -/
def Line.isSent : Line → Bool
  | .sent _ _ => true
  | .taken _ _ _ => false

namespace Talk

/-- Both sides stand behind the same `n` steps, and nothing is on its way. -/
structure Level (n : Nat) (t : Talk) : Prop where
  quiet : ∀ r, t.letters r = []
  level : ∃ (s : Role → State) (a b : AnswerId), (∀ r, t.place r = some ⟨r, s r, a, b⟩) ∧
    Dual (s .initiator) (s .responder) ∧ a.toNat = n

/-- The last of `n` steps is on its way to a side that will take it. -/
structure Pending (n : Nat) (t : Talk) (r : Role) (m : Message) : Prop where
  ahead : t.letters r = [m]
  behind : t.letters r.other = []
  numbered : m.answer.toNat = n
  meets : ∃ p u u', (t.place r = some p ∨ t.place r = none ∧ r = .responder ∧ p = .start) ∧ p.role = r ∧
    m.target = p.last ∧ p.last < m.answer ∧ p.state.next? (.receive m.body.step) = some u' ∧
    t.place r.other = some ⟨r.other, u, m.answer, m.target⟩ ∧ Pairs r u' u

/-- Every message was accepted, and the two sides are level or one step is on its way. -/
structure InTurn (t : Talk) (L : List Line) : Prop where
  accepted : ∀ r m v, .taken r m v ∈ L → v = .ok ()
  phase : Level (L.countP Line.isSent) t ∨ ∃ r m, Pending (L.countP Line.isSent) t r m

variable {id : DialogueId} {full : Role → Prop} {t t' : Talk} {e : Correspondence.Event} {n : Nat}
  {r : Role} {m : Message}

/-- Of level sides each may send, and then the step is on its way to the other. -/
theorem Level.saying {p : Place} {s : State} (h : Level n t) (hp : t.place r = some p)
    (hs : p.state.next? (.send m.body.step) = some s) (ha : m.answer = AnswerId.next p.last)
    (ht : m.target = p.last) (hn : n + 1 < 2 ^ 32 - 1) :
    Pending (n + 1) (t.saying r ⟨p.role, s, m.answer, m.target⟩ m) r.other m := by
  obtain ⟨state, a, b, hplace, hdual, hlast⟩ := h.level
  obtain rfl := Option.some.inj ((hplace r).symm.trans hp)
  obtain ⟨hreceive, hpairs⟩ := ((State.pairs_iff r state).2 hdual).next hs
  have ha' : m.answer.toNat = n + 1 := by
    rw [ha, AnswerId.toNat_next, hlast]
    omega
  refine ⟨?_, ?_, ha', ⟨r.other, state r.other, a, b⟩, s, s.mirror, .inl ?_, rfl, ht, ?_, hreceive, ?_, ?_⟩
  · simp [Talk.saying, h.quiet]
  · simp [Talk.saying, h.quiet]
  · simp [Talk.saying, hplace]
  · rw [UInt32.lt_iff_toNat_lt, ha', hlast]
    exact Nat.lt_succ_self n
  · simp [Talk.saying]
  · exact State.pairs_other.2 hpairs

/-- Only the step that is on its way waits for a side. -/
theorem Pending.of_letters {r' : Role} {m' : Message} {rest : List Message} (h : Pending n t r m)
    (hl : t.letters r' = m' :: rest) : r' = r ∧ m' = m := by
  revert r'
  rw [Role.forall_iff r]
  constructor
  · intro hl
    rw [h.ahead] at hl
    exact ⟨rfl, (List.cons_eq_cons.1 hl).1.symm⟩
  · intro hl
    rw [h.behind] at hl
    cases hl

/-- A side that takes the step that is on its way is level with the other. -/
theorem Pending.hearing {p : Place} {s : State} {rest : List Message} (h : Pending n t r m)
    (hl : t.letters r = m :: rest) (hp : t.place r = some p ∨ t.place r = none ∧ p = .start)
    (hs : p.state.next? (.receive m.body.step) = some s) :
    Level n (t.hearing r (some ⟨p.role, s, m.answer, m.target⟩) rest) := by
  obtain ⟨p', u, u', hp', hrole, -, -, hs', hother, hpairs⟩ := h.meets
  obtain rfl : p' = p := by
    rcases hp with hp | ⟨hp, rfl⟩ <;> rcases hp' with hp' | ⟨hp', -, rfl⟩ <;> rw [hp] at hp'
    · exact (Option.some.inj hp').symm
    · cases hp'
    · cases hp'
  obtain rfl := Option.some.inj (hs'.symm.trans hs)
  obtain rfl : rest = [] := by
    rw [h.ahead] at hl
    exact (List.cons_eq_cons.1 hl).2.symm
  refine ⟨?_, fun r' => if r' = r then u' else u, m.answer, m.target, ?_, ?_, h.numbered⟩
  · rw [Role.forall_iff r]
    simp [Talk.hearing, h.behind]
  · rw [Role.forall_iff r]
    simp [Talk.hearing, hother, hrole]
  · refine (State.pairs_iff r fun r' => if r' = r then u' else u).1 ?_
    simpa using hpairs

/-- What is on its way is taken. -/
theorem Pending.not_refused {rest : List Message} {f : Failure} (h : Pending n t r m)
    (hl : t.letters r = m :: rest) (hfull : t.place .responder = none → ¬ full .responder)
    (hheld : ∀ p, t.place r = some p →
      if m.target = p.last ∧ p.last < m.answer then p.state.next? (.receive m.body.step) = none
      else f = .outOfSequence id m.answer m.target p.last)
    (hnew : t.place r = none → m.body.step.opens → m.target = 0 → 0 < m.answer → full r) : False := by
  obtain ⟨p, u, u', hp, hrole, ht, ha, hs, -, -⟩ := h.meets
  rcases hp with hp | ⟨hp, rfl, rfl⟩
  · have hnone := hheld p hp
    rw [if_pos ⟨ht, ha⟩, hs] at hnone
    cases hnone
  · refine hfull hp (hnew hp ?_ ht ha)
    revert hs
    cases m.body.step <;> simp [Place.start, State.next?, State.afterStep?, Transition.receive, Step.opens]

/-- A letter that waits for a side is the step that is on its way. -/
theorem InTurn.pending {L : List Line} {rest : List Message} (h : t.InTurn L) (hl : t.letters r = m :: rest) :
    Pending (L.countP Line.isSent) t r m := by
  obtain ⟨r', m', hpending⟩ := h.phase.resolve_left fun hlevel => by
    rw [hlevel.quiet] at hl
    cases hl
  obtain ⟨rfl, rfl⟩ := hpending.of_letters hl
  exact hpending

/-- While the responder does not hold the dialogue a letter waits for it. -/
theorem InTurn.letters_ne_nil {L : List Line} (h : t.InTurn L) (hnone : t.place .responder = none) :
    t.letters .responder ≠ [] := by
  rcases h.phase with hlevel | ⟨r, m, hpending⟩
  · obtain ⟨s, a, b, hplace, -⟩ := hlevel.level
    rw [hplace] at hnone
    cases hnone
  · obtain ⟨p, u, u', -, -, -, -, -, hother, -⟩ := hpending.meets
    cases r with
    | initiator =>
      rw [show t.place .responder = _ from hother] at hnone
      cases hnone
    | responder =>
      rw [hpending.ahead]
      simp

/-- A turn of an orderly exchange: what is taken is accepted, and the sides are level behind it. -/
theorem InTurn.turn {L : List Line} {l : Option Line} (h : t.InTurn L)
    (hquiet : ∀ r deed, e = .act r deed → ∀ r', t.letters r' = [])
    (hspeaks : ∀ r id event, e ≠ .act r (.event id event))
    (hfull : t.place .responder = none → ¬ full .responder)
    (hn : (L ++ l.toList).countP Line.isSent < 2 ^ 32 - 1) (ht : Turn id full t e l t') :
    t'.InTurn (L ++ l.toList) ∧
      ∀ r m v, l = some (.taken r m v) → Level ((L ++ l.toList).countP Line.isSent) t' := by
  cases ht with
  | still => exact ⟨by simpa using h, by simp⟩
  | @wrote r p s m he hp hs ha ht =>
    have hcount : (L ++ [Line.sent r m]).countP Line.isSent = L.countP Line.isSent + 1 := by
      rw [List.countP_append]
      rfl
    rw [Option.toList_some, hcount] at hn
    obtain ⟨deed, he⟩ := he
    refine ⟨⟨fun r' m' v hm => ?_, .inr ⟨r.other, m, ?_⟩⟩, by simp⟩
    · rcases List.mem_append.1 hm with hm | hm
      · exact h.accepted r' m' v hm
      · cases List.mem_singleton.1 hm
    · rw [Option.toList_some, hcount]
      rcases h.phase with hlevel | ⟨r', m', hpending⟩
      · exact hlevel.saying hp hs ha ht hn
      · have hempty := hquiet r deed he r'
        rw [hpending.ahead] at hempty
        cases hempty
  | ended he hp hs =>
    obtain ⟨event, he⟩ := he
    exact absurd he (hspeaks _ _ _)
  | @accepted r m rest p s hl hp ht ha hs =>
    have hlevel : Level ((L ++ [Line.taken r m (.ok ())]).countP Line.isSent)
        (t.hearing r (some ⟨p.role, s, m.answer, m.target⟩) rest) := by
      rw [List.countP_append]
      exact (h.pending hl).hearing hl hp hs
    refine ⟨⟨fun r' m' v hm => ?_, .inl hlevel⟩, fun _ _ _ _ => hlevel⟩
    rcases List.mem_append.1 hm with hm | hm
    · exact h.accepted r' m' v hm
    · cases List.mem_singleton.1 hm
      rfl
  | refused hl hheld hnew => exact ((h.pending hl).not_refused hl hfull hheld hnew).elim

/-- Behind the first message the sides are in turn: it is on its way to a side that will take it. -/
theorem inTurn_of_first {s : State} (hs : State.idle.next? (.send m.body.step) = some s)
    (ha : m.answer = 1) (ht : m.target = 0) :
    ((⟨fun _ => none, fun _ => []⟩ : Talk).saying .initiator ⟨.initiator, s, 1, 0⟩ m).InTurn
      [.sent .initiator m] := by
  have hreceive : State.idle.next? (.receive m.body.step) = some s.mirror := by
    rw [show State.idle.next? (.receive m.body.step) = _ from State.next?_mirror .idle m.body.step .outbound]
    exact congrArg (Option.map State.mirror) hs
  refine ⟨fun r m v hm => ?_, .inr ⟨.responder, m, rfl, rfl, by rw [ha]; rfl, .start, s, s.mirror,
    .inr ⟨rfl, rfl, rfl⟩, rfl, ht, ?_, hreceive, ?_, State.dual_of_idle hs⟩⟩
  · cases List.mem_singleton.1 hm
  · rw [ha]
    decide
  · rw [ha, ht]
    rfl

/-- A side that does not hold the dialogue behind a turn did not before. -/
theorem Turn.place_eq_none {l : Option Line} (ht : Turn id full t e l t') (h : t'.place r = none) :
    t.place r = none := by
  have hupdate : ∀ {r' q}, Function.update t.place r' q r = none → q ≠ none → t.place r = none := by
    intro r' q hnone hq
    by_cases hr : r = r'
    · subst hr
      exact absurd ((Function.update_self ..).symm.trans hnone) hq
    · rwa [Function.update_of_ne hr] at hnone
  cases ht with
  | still => exact h
  | wrote => exact hupdate h (by simp)
  | ended => exact hupdate h (by simp)
  | accepted => exact hupdate h (by simp)
  | @refused r' m rest f hl hheld hnew =>
    rw [hearing, Function.update_eq_self] at h
    exact h

end Talk

/-! ### Room for the dialogue -/

theorem Engine.size_put_le (e : Engine) (d : Dialogue) : (e.put d).table.size ≤ e.table.size + 1 := by
  cases h : e.table.dialogues.get? d.id with
  | none => exact Nat.le_of_eq (SortedMap.size_insert_of_none d h)
  | some d' => exact Nat.le_succ_of_le (Nat.le_of_eq (SortedMap.size_insert_of_some d h))

theorem Engine.size_observe_le (e : Engine) (now : Millis) (event : Event) :
    (e.observe now event).2.1.table.size ≤ e.table.size + 1 ∧
      (e.observe now event).2.1.table.limits = e.table.limits := by
  rcases e.observe_engine now event with he | ⟨m, d, -, -, he⟩ | ⟨_, _, _, _, d, -, -, -, he⟩ <;> rw [he]
  · exact ⟨Nat.le_succ _, rfl⟩
  · exact ⟨e.size_put_le d, rfl⟩
  · exact ⟨e.size_put_le d, rfl⟩

namespace Correspondence

variable {c : Correspondence} {id : DialogueId} {now : Millis}

/-- An event that says something in a dialogue or takes an event. -/
def Event.Speaks (id : DialogueId) : Event → Prop
  | .act _ (.answer id' _) => id' = id
  | .act _ _ => False
  | .read _ => True

/-- Whether one of the sides acts. -/
def Event.isAct : Event → Bool
  | .act _ _ => true
  | .read _ => false

/-- The sides act only while no message of the dialogue is on its way. -/
def Orderly (c : Correspondence) (id : DialogueId) (es : List (Millis × Event)) : Prop :=
  ∀ pre e, pre ++ [e] <+: es → e.2.isAct → ∀ r, (c.run pre).letters r id = []

/-- The sides take turns if nothing is on its way before each act. -/
theorem orderly_of_take {es : List (Millis × Event)} (h : ∀ i (hi : i < es.length), es[i].2.isAct →
    (c.run (es.take i)).letters .initiator id = [] ∧ (c.run (es.take i)).letters .responder id = []) :
    c.Orderly id es := by
  intro pre e hpre hact
  rw [Role.forall_iff .initiator]
  exact Parley.forall_moments (P := fun pre e => e.2.isAct →
    (c.run pre).letters .initiator id = [] ∧ (c.run pre).letters .responder id = []) h pre e hpre hact

/-- The room that a side's table needs when each event that waits for it begins a dialogue. -/
def load (c : Correspondence) (r : Role) : Nat :=
  (c.engine r).table.size + (c.exchange.waiting (c.key r)).length

/-- There is room in a side's table for all that waits for it. -/
def Spare (c : Correspondence) (r : Role) : Prop := c.load r ≤ (c.engine r).table.limits.capacity

/-- Both sides hold the dialogue, in their roles, with the same numbers and in dual states. -/
def Mirrored (c : Correspondence) (id : DialogueId) : Prop :=
  ∃ a b, c.entry .initiator id = some a ∧ c.entry .responder id = some b ∧
    a.role = .initiator ∧ b.role = .responder ∧ a.lastAnswer = b.lastAnswer ∧
    a.lastTarget = b.lastTarget ∧ Dual a.state b.state

theorem mirrored_of_level {n : Nat} (h : Talk.Level n (c.talk id)) : c.Mirrored id := by
  obtain ⟨s, a, b, hplace, hdual, -⟩ := h.level
  obtain ⟨d, hd, hd'⟩ := Option.map_eq_some_iff.1 (hplace .initiator)
  obtain ⟨d', hr, hr'⟩ := Option.map_eq_some_iff.1 (hplace .responder)
  simp only [Dialogue.place, Place.mk.injEq] at hd' hr'
  obtain ⟨hrole, hs, ha, hb⟩ := hd'
  obtain ⟨hrole', hs', ha', hb'⟩ := hr'
  exact ⟨d, d', hd, hr, hrole, hrole', ha.trans ha'.symm, hb.trans hb'.symm, hs ▸ hs' ▸ hdual⟩

theorem Event.Speaks.within {e : Event} (h : e.Speaks id) : e.Within id := by
  cases e with
  | act side deed =>
    cases deed with
    | opening peer body => exact h
    | answer id' body => exact h
    | event id' t => cases h
  | read side => trivial

/-- Whoever takes an event, there is room for what waits for a side if there was before. -/
theorem Joined.spare_read {r r' : Role} (h : c.Joined id) (hspare : c.Spare r) :
    (c.step now (.read r')).Spare r := by
  obtain ⟨events, hbox, -⟩ := h.boxes r'
  cases events with
  | nil =>
    rw [step, Exchange.take_of_waiting_nil (Exchange.waiting_of_keeps hbox)]
    exact hspare
  | cons event rest =>
    obtain ⟨hsize, hlimits⟩ := (c.engine r').size_observe_le now event
    rw [step, Exchange.take_of_keeps hbox, Spare, load, put_key (Engine.observe_home ..)]
    rw [Spare, load] at hspare
    revert r
    rw [Role.forall_iff r']
    constructor
    · intro hspare
      rw [Exchange.waiting_of_keeps hbox, List.length_cons] at hspare
      rw [put_engine, hlimits, put_exchange, Exchange.waiting_of_keeps (Exchange.keeps_setMailbox ..)]
      exact Nat.le_trans (Nat.add_le_add_right hsize rest.length) (by omega)
    · intro hspare
      obtain ⟨events', hbox', -⟩ := h.boxes r'.other
      rw [Exchange.waiting_of_keeps hbox'] at hspare
      rw [put_engine_other, put_exchange, Exchange.waiting_of_keeps (hbox'.setMailbox_ne (h.apart r') _)]
      exact hspare

/-- Where a letter of the dialogue waits and there is room for all that does, the table is not full. -/
theorem Spare.not_full {r : Role} (h : c.Spare r) (hl : (c.talk id).letters r ≠ []) :
    ¬ (c.engine r).table.isFull := by
  have hwaiting : c.exchange.waiting (c.key r) ≠ [] := fun hnil => hl (by
    show (c.exchange.waiting (c.key r)).filterMap _ = []
    rw [hnil]
    rfl)
  have hpos := List.length_pos_iff.2 hwaiting
  rw [Spare, load] at h
  rw [Table.isFull, decide_eq_true_iff]
  omega

/-- The first message takes up room that was free. -/
theorem Opens.spare {peer : Address} {body : Body} (h : c.Opens id now peer body)
    (hroom : ∀ r, (c.exchange.waiting (c.key r)).length < c.exchange.capacity)
    (hfree : c.load .responder < (c.engine .responder).table.limits.capacity) :
    (c.run [first now peer body]).Spare .responder := by
  obtain ⟨a, s, events, -, -, hbox, -, -, hcarry⟩ := h.carryOut hroom
  rw [load, Exchange.waiting_of_keeps hbox] at hfree
  show (c.put .initiator (c.carryOut .initiator now (.opening peer body)).2).Spare .responder
  rw [hcarry, Spare, load, put_key rfl, show Role.responder = Role.initiator.other from rfl,
    put_engine_other, put_exchange, Exchange.waiting_of_keeps (Exchange.keeps_setMailbox ..),
    List.length_append]
  exact hfree

/-- STEP: an event of an orderly run keeps the sides in turn, and level behind what is taken; and there is
room for the first message until it is taken. -/
theorem Orderly.turn {begun : Millis × Event} {es : List (Millis × Event)}
    (h : c.Orderly id (begun :: es)) (hes : ∀ e ∈ es, e.2.Speaks id) {pre : List (Millis × Event)}
    {e : Millis × Event} (hpre : pre ++ [e] <+: es) (hjoined : (c.run (begun :: pre)).Joined id)
    (hin : ((c.run (begun :: pre)).talk id).InTurn (c.transcript id (begun :: pre)))
    (hspare : (c.run (begun :: pre)).entry .responder id = none → (c.run (begun :: pre)).Spare .responder)
    (hsteps : (c.transcript id (begun :: (pre ++ [e]))).countP Line.isSent < 2 ^ 32 - 1)
    (ht : Talk.Turn id (fun r => ((c.run (begun :: pre)).engine r).table.isFull)
      ((c.run (begun :: pre)).talk id) e.2 ((c.run (begun :: pre)).line? id e.1 e.2)
      ((c.run (begun :: (pre ++ [e]))).talk id)) :
    ((c.run (begun :: (pre ++ [e]))).talk id).InTurn (c.transcript id (begun :: (pre ++ [e]))) ∧
    ((c.run (begun :: (pre ++ [e]))).entry .responder id = none →
      (c.run (begun :: (pre ++ [e]))).Spare .responder) ∧
    ∀ r m v, (c.run (begun :: pre)).line? id e.1 e.2 = some (.taken r m v) →
      Talk.Level ((c.transcript id (begun :: (pre ++ [e]))).countP Line.isSent)
        ((c.run (begun :: (pre ++ [e]))).talk id) := by
  have hevent := h (begun :: pre) e (List.cons_prefix_cons.2 ⟨rfl, hpre⟩)
  have hspeaks := hes e (hpre.subset (List.mem_append_right _ List.mem_cons_self))
  have hlines : c.transcript id (begun :: (pre ++ [e])) =
      c.transcript id (begun :: pre) ++ ((c.run (begun :: pre)).line? id e.1 e.2).toList :=
    transcript_concat c id (begun :: pre) e
  rw [hlines] at hsteps ⊢
  obtain ⟨hin', hlevel⟩ := hin.turn
    (fun r deed he r' => hevent (by rw [he]; rfl) r')
    (fun r id' event he => by
      rw [he] at hspeaks
      cases hspeaks)
    (fun hnone => (hspare (Option.map_eq_none_iff.1 hnone)).not_full (hin.letters_ne_nil hnone)) hsteps ht
  refine ⟨hin', fun hnone => ?_, hlevel⟩
  -- the responder does not hold the dialogue, so its letter waits, and nobody acts
  have hunheld := ht.place_eq_none (Option.map_eq_none_iff.2 hnone)
  rw [show c.run (begun :: (pre ++ [e])) = _ from run_concat c (begun :: pre) e]
  obtain ⟨t, e⟩ := e
  cases e with
  | act side deed => exact absurd (hevent rfl .responder) (hin.letters_ne_nil hunheld)
  | read side => exact hjoined.spare_read (hspare (Option.map_eq_none_iff.1 hunheld))

/-- RUN: in an orderly run what is taken is accepted, and behind it the sides are level with all that was
    said. -/
theorem Opens.level_of_taken {peer : Address} {body : Body} (h : c.Opens id now peer body)
    (hfree : c.load .responder < (c.engine .responder).table.limits.capacity)
    {es : List (Millis × Event)} (hes : ∀ e ∈ es, e.2.Speaks id)
    (hroom : c.Roomy (first now peer body :: es)) (horderly : c.Orderly id (first now peer body :: es))
    (hsteps : (c.transcript id (first now peer body :: es)).countP Line.isSent < 2 ^ 32 - 1)
    {pre : List (Millis × Event)} {e : Millis × Event} (hpre : pre ++ [e] <+: es) {r : Role} {m : Message}
    {v : Except Failure Unit}
    (htaken : (c.run (first now peer body :: pre)).line? id e.1 e.2 = some (.taken r m v)) :
    v = .ok () ∧ Talk.Level ((c.transcript id (first now peer body :: (pre ++ [e]))).countP Line.isSent)
      ((c.run (first now peer body :: (pre ++ [e]))).talk id) := by
  set begun := first now peer body
  have hroom₀ := hroom [] List.nil_prefix
  -- the steps of a beginning are fewer than there are numbers
  have hcount : ∀ {pre}, pre <+: es → (c.transcript id (begun :: pre)).countP Line.isSent < 2 ^ 32 - 1 := by
    rintro pre ⟨post, rfl⟩
    refine Nat.lt_of_le_of_lt ?_ hsteps
    rw [← List.cons_append, transcript_append]
    exact (List.sublist_append_left ..).countP_le
  have hfirst : ((c.run [begun]).talk id).InTurn (c.transcript id [begun]) := by
    obtain ⟨-, m, s, hlines, hbody, ha, ht, hs, htalk⟩ := h.turn hroom₀
    rw [hlines, htalk]
    exact Talk.inTurn_of_first (hbody.symm ▸ hs) ha ht
  obtain ⟨hjoined, ⟨hin, hspare⟩, ht⟩ := h.run_turns
    (I := fun pre => ((c.run (begun :: pre)).talk id).InTurn (c.transcript id (begun :: pre)) ∧
      ((c.run (begun :: pre)).entry .responder id = none → (c.run (begun :: pre)).Spare .responder))
    hroom (fun e he => (hes e he).within) ⟨hfirst, fun _ => h.spare hroom₀ hfree⟩
    (fun pre e hpre hjoined ⟨hin, hspare⟩ ht =>
      have ⟨hin', hspare', _⟩ := horderly.turn hes hpre hjoined hin hspare (hcount hpre) ht
      ⟨hin', hspare'⟩)
    hpre
  obtain ⟨hin', -, hlevel⟩ := horderly.turn hes hpre hjoined hin hspare (hcount hpre) ht
  refine ⟨hin'.accepted r m v ?_, hlevel r m v htaken⟩
  rw [show c.transcript id (begun :: (pre ++ [e])) = _ from transcript_concat c id (begun :: pre) e, htaken]
  exact List.mem_append_right _ List.mem_cons_self

/-- MIRROR: one side begins a dialogue with another that has room for it besides all that waits there, and
    the two then take turns, each message being taken before either sends again, with room in the
    mailboxes and fewer steps than there are numbers. Then every message that is taken is accepted, and
    behind it both hold the dialogue, as initiator and responder, with the same numbers and in dual
    states. -/
theorem mirrored_of_orderly {peer : Address} {body : Body} (h : c.Opens id now peer body)
    (hfree : c.load .responder < (c.engine .responder).table.limits.capacity)
    {es : List (Millis × Event)} (hes : ∀ e ∈ es, e.2.Speaks id)
    (hroom : c.Roomy (first now peer body :: es)) (horderly : c.Orderly id (first now peer body :: es))
    (hsteps : (c.transcript id (first now peer body :: es)).countP Line.isSent < 2 ^ 32 - 1)
    {pre : List (Millis × Event)} {e : Millis × Event} (hpre : pre ++ [e] <+: es) {r : Role} {m : Message}
    {v : Except Failure Unit}
    (htaken : (c.run (first now peer body :: pre)).line? id e.1 e.2 = some (.taken r m v)) :
    v = .ok () ∧ (c.run (first now peer body :: (pre ++ [e]))).Mirrored id := by
  obtain ⟨hv, hlevel⟩ := h.level_of_taken hfree hes hroom horderly hsteps hpre htaken
  exact ⟨hv, mirrored_of_level hlevel⟩

/-- Alice calls, Bob proposes, and she accepts: behind her acceptance both are in the same place. -/
theorem bargain_mirrored :
    let es : List (Millis × Event) :=
      [(1, .read .responder), (2, .act .responder (.answer 1 (.propose (.content [7])))),
        (3, .read .initiator), (4, .act .initiator (.answer 1 .accept))]
    let bargain := couple.run (first 0 (.ofKey "bob") (.cfp .nothing) :: es)
    (∃ m, m.body = .accept ∧ bargain.line? 1 5 (.read .responder) = some (.taken .responder m (.ok ()))) ∧
      (bargain.step 5 (.read .responder)).Mirrored 1 := by
  intro es bargain
  obtain ⟨m, v, hbody, htaken⟩ : ∃ m v, m.body = .accept ∧
      bargain.line? 1 5 (.read .responder) = some (.taken .responder m v) := ⟨_, _, rfl, rfl⟩
  have hes : ∀ e ∈ es ++ [(5, .read .responder)], e.2.Speaks 1 := by simp [es, Event.Speaks]
  obtain ⟨rfl, hmirrored⟩ := mirrored_of_orderly (opens_couple 0 rfl) (by decide +kernel) hes
    (roomy_of_take (by decide +kernel)) (orderly_of_take (by decide +kernel)) (by decide +kernel)
    List.prefix_rfl htaken
  exact ⟨⟨m, hbody, htaken⟩, hmirrored⟩

/-- The usual case: the other side, for which nothing waits, has a table that is not full and does not hold
the dialogue. -/
theorem mirrored_of_idle {peer : Address} {body : Body} (hapart : c.key .initiator ≠ c.key .responder)
    (hnamed : ∀ r, c.key r ≠ "") (hholds : ∀ r, (c.engine r).Holds fun _ => True)
    (hown : ∃ events, c.exchange.Keeps (c.key .initiator) events ∧ ∀ e ∈ events, ¬ e.Concerns id)
    (hidle : c.exchange.Keeps (c.key .responder) []) (hfull : ¬ (c.engine .responder).table.isFull)
    (hunheld : c.entry .responder id = none) (hcalled : peer.key = c.key .responder)
    (hopened : ((c.side .initiator).openDialogue (Exchange.connection (c.key .initiator)) now peer body).1 =
      .ok id)
    {es : List (Millis × Event)} (hes : ∀ e ∈ es, e.2.Speaks id)
    (hroom : c.Roomy (first now peer body :: es)) (horderly : c.Orderly id (first now peer body :: es))
    (hsteps : (c.transcript id (first now peer body :: es)).countP Line.isSent < 2 ^ 32 - 1)
    {pre : List (Millis × Event)} {e : Millis × Event} (hpre : pre ++ [e] <+: es) {r : Role} {m : Message}
    {v : Except Failure Unit}
    (htaken : (c.run (first now peer body :: pre)).line? id e.1 e.2 = some (.taken r m v)) :
    v = .ok () ∧ (c.run (first now peer body :: (pre ++ [e]))).Mirrored id := by
  have hfree : c.load .responder < (c.engine .responder).table.limits.capacity := by
    rw [load, Exchange.waiting_of_keeps hidle]
    simpa [Table.isFull] using hfull
  have h : c.Opens id now peer body :=
    ⟨hapart, hnamed, hholds, (Role.forall_iff .initiator).2 ⟨hown, [], hidle, by simp⟩, hunheld, hcalled,
      hopened⟩
  obtain ⟨hv, hlevel⟩ := h.level_of_taken hfree hes hroom horderly hsteps hpre htaken
  exact ⟨hv, mirrored_of_level hlevel⟩

end Correspondence

end Negotiation
