import Mathlib.Logic.Function.Basic
import Negotiation.Proofs.Agent.Letters
import Negotiation.Proofs.Parley
import Negotiation.Proofs.Table.Receiving

/-!
Two engines that write to each other over a broker. Their owners and applications act and their engines
take events in any order; what is on its way waits in the mailboxes. Of one dialogue and the messages
on their way in it, `talk` keeps what matters: where each side stands, and the messages that wait for
it. Main statement (`step_turn`): while there is room in the mailboxes, an event that says something in
the dialogue or takes an event does one of five things to the talk.
-/

namespace Negotiation

/-- Two engines on one broker. -/
structure Correspondence where
  engine : Role → Engine
  exchange : Exchange

/-- Where one side stands in a dialogue. -/
structure Place where
  role : Role
  state : State
  last : AnswerId
  target : AnswerId
  deriving DecidableEq

/-- Where a dialogue stands. -/
def Dialogue.place (d : Dialogue) : Place := ⟨d.role, d.state, d.lastAnswer, d.lastTarget⟩

/-- Where a dialogue that the other side begins stands before its first message. -/
def Place.start : Place := ⟨.responder, .idle, 0, 0⟩

/-- A dialogue on both sides, and the messages of it that wait for each. -/
@[ext]
structure Talk where
  place : Role → Option Place
  letters : Role → List Message

/-- What becomes of a message of a dialogue: it is sent, or it is taken with a verdict. -/
inductive Line where
  | sent (side : Role) (m : Message)
  | taken (side : Role) (m : Message) (verdict : Except Failure Unit)
  deriving DecidableEq

/-- The messages that a side has sent, in order. -/
def sentBy (r : Role) (L : List Line) : List Message :=
  L.filterMap fun
    | .sent r' m => if r' = r then some m else none
    | .taken _ _ _ => none

/-- The messages that a side has taken with their verdicts, in order. -/
def takenBy (r : Role) (L : List Line) : List (Message × Except Failure Unit) :=
  L.filterMap fun
    | .sent _ _ => none
    | .taken r' m v => if r' = r then some (m, v) else none

/-- Whether an event is about a dialogue. -/
def Event.Concerns (id : DialogueId) : Event → Prop
  | .agent m => m.dialogue = id
  | .dialogueError _ id' _ => id' = id
  | _ => False

/-- The message of a dialogue that an event brings. -/
def Event.letter? (id : DialogueId) : Event → Option Message
  | .agent m => if m.dialogue = id then some m else none
  | _ => none

namespace Correspondence

/-- Something that happens to one of the engines. -/
inductive Event where
  /-- The engine's owner or application acts. -/
  | act (side : Role) (deed : Deed)
  /-- The engine takes the first event that waits for it. -/
  | read (side : Role)

section Definitions

variable (c : Correspondence)

/-- The address of an engine's agent. -/
def home (r : Role) : Address := (c.engine r).home

/-- The key of an engine's agent. -/
def key (r : Role) : String := (c.home r).key

/-- The dialogue of a number on one side. -/
def entry (r : Role) (id : DialogueId) : Option Dialogue := (c.engine r).table.get? id

/-- One side and its connection to the broker. -/
def side (r : Role) : Linked Exchange := ⟨c.engine r, c.exchange⟩

/-- The correspondence with one side in another state. -/
def put (r : Role) (s : Linked Exchange) : Correspondence where
  engine r' := if r' = r then s.engine else c.engine r'
  exchange := s.link

/-- What a deed of one side comes to. -/
def carryOut (r : Role) (now : Millis) (deed : Deed) : Except Failure Unit × Linked Exchange :=
  (c.side r).carryOut (Exchange.connection (c.key r)) now deed

/-- What an event does. -/
def step (now : Millis) : Event → Correspondence
  | .act r deed => c.put r (c.carryOut r now deed).2
  | .read r =>
    match c.exchange.take (c.key r) with
    | (some e, x) => c.put r ⟨((c.engine r).observe now e).2.1, x⟩
    | (none, _) => c

/-- What some events do. -/
def run (es : List (Millis × Event)) : Correspondence := es.foldl (fun c e => c.step e.1 e.2) c

/-- The messages of a dialogue that wait for one side. -/
def letters (r : Role) (id : DialogueId) : List Message :=
  (c.exchange.waiting (c.key r)).filterMap (·.letter? id)

/-- A dialogue on both sides, and the messages of it on their way. -/
def talk (id : DialogueId) : Talk where
  place r := (c.entry r id).map Dialogue.place
  letters r := c.letters r id

/-- What an event writes down about the messages of a dialogue. -/
def line? (id : DialogueId) (now : Millis) : Event → Option Line
  | .act r deed =>
    match (c.carryOut r now deed).1, (c.engine r).handover? now deed with
    | .ok (), some (m, _) =>
      if m.dialogue = id then some (.sent r (m.delivered (.ofKey (c.key r)))) else none
    | _, _ => none
  | .read r =>
    match (c.exchange.take (c.key r)).1 with
    | some e => (e.letter? id).map fun m => .taken r m ((c.engine r).observe now e).2.2
    | none => none

/-- What some events write down, in order. -/
def transcript (id : DialogueId) : Correspondence → List (Millis × Event) → List Line
  | _, [] => []
  | c, e :: es => (c.line? id e.1 e.2).toList ++ transcript id (c.step e.1 e.2) es

/-- There is always room in both mailboxes while some events happen. -/
def Roomy (es : List (Millis × Event)) : Prop :=
  ∀ pre, pre <+: es → ∀ r,
    ((c.run pre).exchange.waiting ((c.run pre).key r)).length < (c.run pre).exchange.capacity

end Definitions

/-- The first event of a dialogue: one side opens it. -/
def first (now : Millis) (peer : Address) (body : Body) : Millis × Event :=
  (now, .act .initiator (.opening peer body))

/-- An event that says something in a dialogue, ends it or takes an event. -/
def Event.Within (id : DialogueId) : Event → Prop
  | .act _ (.opening _ _) => False
  | .act _ (.answer id' _) => id' = id
  | .act _ (.event id' t) => id' = id ∧ ∀ step dir, t ≠ .step step dir
  | .read _ => True

/-- One side begins a dialogue with the other: their keys are proper and different, nothing about the
number waits for either, and the other does not hold it. -/
structure Opens (c : Correspondence) (id : DialogueId) (now : Millis) (peer : Address) (body : Body) :
    Prop where
  apart : c.key .initiator ≠ c.key .responder
  named : ∀ r, c.key r ≠ ""
  holds : ∀ r, (c.engine r).Holds fun _ => True
  boxes : ∀ r, ∃ events, c.exchange.Keeps (c.key r) events ∧ ∀ e ∈ events, ¬ e.Concerns id
  unheld : c.entry .responder id = none
  called : peer.key = c.key .responder
  opened : ((c.side .initiator).openDialogue (Exchange.connection (c.key .initiator)) now peer body).1 =
    .ok id

/-- What waits for a side about a dialogue are messages of the other. -/
def Boxed (c : Correspondence) (id : DialogueId) (r : Role) (events : List Negotiation.Event) : Prop :=
  ∀ e ∈ events, e.Concerns id → ∃ m, e = .agent m ∧ m.origin.key = c.key r.other

/-- A dialogue between two sides only: each holds it with the other, and what waits about it are
messages of the other. -/
structure Joined (c : Correspondence) (id : DialogueId) : Prop where
  apart : ∀ r, c.key r ≠ c.key r.other
  named : ∀ r, c.key r ≠ ""
  holds : ∀ r, (c.engine r).Holds fun _ => True
  boxes : ∀ r, ∃ events, c.exchange.Keeps (c.key r) events ∧ c.Boxed id r events
  stands : ∀ r d, c.entry r id = some d →
    d.Stands (c.home r) (c.key r.other) id d.state d.lastAnswer

end Correspondence

namespace Talk

/-- The talk behind a step that one side sends. -/
def saying (t : Talk) (r : Role) (p : Place) (m : Message) : Talk where
  place := Function.update t.place r (some p)
  letters := Function.update t.letters r.other (t.letters r.other ++ [m])

/-- The talk behind the first message that waits for one side. -/
def hearing (t : Talk) (r : Role) (p : Option Place) (rest : List Message) : Talk where
  place := Function.update t.place r p
  letters := Function.update t.letters r rest

/-- What an event can do to the talk under a number; `full` are the sides without room for a dialogue
more. -/
inductive Turn (id : DialogueId) (full : Role → Prop) (t : Talk) (e : Correspondence.Event) :
    Option Line → Talk → Prop
  /-- Nothing. -/
  | still : Turn id full t e none t
  /-- A side sends a step. -/
  | wrote {r : Role} {p : Place} {s : State} {m : Message} (he : ∃ deed, e = .act r deed)
      (hp : t.place r = some p) (hs : p.state.next? (.send m.body.step) = some s)
      (ha : m.answer = AnswerId.next p.last) (ht : m.target = p.last) :
      Turn id full t e (some (.sent r m)) (t.saying r ⟨p.role, s, m.answer, m.target⟩ m)
  /-- A side ends the dialogue by an event that sends nothing. -/
  | ended {r : Role} {p : Place} {s : State} (he : ∃ event, e = .act r (.event id event))
      (hp : t.place r = some p) (hs : s.isClosed) :
      Turn id full t e none { t with place := Function.update t.place r (some { p with state := s }) }
  /-- A side takes a message. -/
  | accepted {r : Role} {m : Message} {rest : List Message} {p : Place} {s : State}
      (hl : t.letters r = m :: rest)
      (hp : t.place r = some p ∨ t.place r = none ∧ p = .start) (ht : m.target = p.last)
      (ha : p.last < m.answer) (hs : p.state.next? (.receive m.body.step) = some s) :
      Turn id full t e (some (.taken r m (.ok ())))
        (t.hearing r (some ⟨p.role, s, m.answer, m.target⟩) rest)
  /-- A side refuses a message. -/
  | refused {r : Role} {m : Message} {rest : List Message} {f : Failure} (hl : t.letters r = m :: rest)
      (hheld : ∀ p, t.place r = some p →
        if m.target = p.last ∧ p.last < m.answer then p.state.next? (.receive m.body.step) = none
        else f = .outOfSequence id m.answer m.target p.last)
      (hnew : t.place r = none → m.body.step.opens → m.target = 0 → 0 < m.answer → full r) :
      Turn id full t e (some (.taken r m (.error f))) (t.hearing r (t.place r) rest)

end Talk

/-- What holds of one side and of the other holds of both. -/
theorem Role.forall_iff {P : Role → Prop} (r : Role) : (∀ r', P r') ↔ P r ∧ P r.other := by
  refine ⟨fun h => ⟨h r, h r.other⟩, fun ⟨hr, ho⟩ r' => ?_⟩
  cases r <;> cases r' <;> first | exact hr | exact ho

@[simp] theorem Role.other_ne (r : Role) : r.other ≠ r := by
  cases r <;> decide

@[simp] theorem Role.ne_other (r : Role) : r ≠ r.other := r.other_ne.symm

/-! ### One engine -/

/-- An event about something else leaves the dialogue of a number alone. -/
theorem Engine.observe_entry {e : Engine} (hk : e.Holds fun _ => True) {id : DialogueId} (now : Millis)
    {event : Event} (h : ¬ event.Concerns id) :
    (e.observe now event).2.1.table.get? id = e.table.get? id := by
  rcases e.observe_engine now event with he | ⟨m, d', rfl, hr, he⟩ | ⟨_, id', _, d, d', rfl, hg, ha, he⟩ <;>
    rw [he]
  · obtain ⟨-, s, -, rfl⟩ := Dialogue.receive_eq_ok_iff.1 hr
    rw [get?_put]
    exact if_neg fun he => h ((hk.found_id m now).symm.trans he)
  · rw [get?_put]
    exact if_neg fun he => h (((Dialogue.apply_id ha).trans (hk _ _ hg).1).symm.trans he)

theorem Event.letter?_eq_none {id : DialogueId} {e : Event} (h : ¬ e.Concerns id) : e.letter? id = none := by
  cases e with
  | agent m => exact if_neg h
  | _ => rfl

theorem Event.letter?_agent (m : Message) : (Event.agent m).letter? m.dialogue = some m := if_pos rfl

namespace Correspondence

variable {c : Correspondence} {r : Role} {id : DialogueId} {now : Millis}

/-! ### One side -/

section Put

variable {s : Linked Exchange}

@[simp] theorem put_engine (c : Correspondence) (r : Role) (s : Linked Exchange) :
    (c.put r s).engine r = s.engine := if_pos rfl

@[simp] theorem put_engine_other (c : Correspondence) (r : Role) (s : Linked Exchange) :
    (c.put r s).engine r.other = c.engine r.other := by
  cases r <;> rfl

@[simp] theorem put_exchange (c : Correspondence) (r : Role) (s : Linked Exchange) :
    (c.put r s).exchange = s.link := rfl

theorem put_home (hs : s.engine.home = c.home r) (r' : Role) : (c.put r s).home r' = c.home r' := by
  revert r'
  rw [Role.forall_iff r]
  exact ⟨by rw [home, put_engine, hs], by rw [home, put_engine_other]; rfl⟩

theorem put_key (hs : s.engine.home = c.home r) (r' : Role) : (c.put r s).key r' = c.key r' :=
  congrArg Address.key (put_home hs r')

/-- The talk behind a change of one side. -/
theorem talk_put (hs : s.engine.home = c.home r) : (c.put r s).talk id =
    { place := Function.update (c.talk id).place r ((s.engine.table.get? id).map Dialogue.place)
      letters := fun r' => (s.link.waiting (c.key r')).filterMap (·.letter? id) } := by
  refine Talk.ext (funext ?_) (funext fun r' => ?_)
  · rw [Role.forall_iff r]
    constructor
    · simp [talk, entry]
    · simp [talk, entry]
  · simp only [talk, letters, put_key hs]
    rfl

/-- The boxes of two sides that are apart, when one of them changes. -/
theorem letters_setMailbox (hkeys : ∀ r, c.key r ≠ c.key r.other) (r : Role)
    (events : List Negotiation.Event) :
    (fun r' => ((c.exchange.setMailbox (c.key r) { events }).waiting (c.key r')).filterMap (·.letter? id)) =
      Function.update (c.talk id).letters r (events.filterMap (·.letter? id)) := by
  refine funext ?_
  rw [Role.forall_iff r]
  constructor
  · rw [Function.update_self, Exchange.waiting_of_keeps (Exchange.keeps_setMailbox ..)]
  · rw [Function.update_of_ne r.other_ne, Exchange.waiting, Exchange.get?_setMailbox, if_neg (hkeys r)]
    rfl

theorem Joined.boxes_setMailbox (h : c.Joined id) {events : List Negotiation.Event}
    (hevents : c.Boxed id r events) (r' : Role) : ∃ events',
      (c.exchange.setMailbox (c.key r) { events }).Keeps (c.key r') events' ∧ c.Boxed id r' events' := by
  revert r'
  rw [Role.forall_iff r]
  refine ⟨⟨events, Exchange.keeps_setMailbox .., hevents⟩, ?_⟩
  obtain ⟨events', hkeeps, hboxed⟩ := h.boxes r.other
  exact ⟨events', hkeeps.setMailbox_ne (h.apart r) _, hboxed⟩

/-- A side that changes stays joined to the other. -/
theorem Joined.put (h : c.Joined id) (hhome : s.engine.home = c.home r)
    (hholds : s.engine.Holds fun _ => True)
    (hboxes : ∀ r', ∃ events, s.link.Keeps (c.key r') events ∧ c.Boxed id r' events)
    (hstands : ∀ d, s.engine.table.get? id = some d →
      d.Stands (c.home r) (c.key r.other) id d.state d.lastAnswer) : (c.put r s).Joined id where
  apart r' := by
    rw [put_key hhome, put_key hhome]
    exact h.apart r'
  named r' := by
    rw [put_key hhome]
    exact h.named r'
  holds := by
    rw [Role.forall_iff r, put_engine, put_engine_other]
    exact ⟨hholds, h.holds r.other⟩
  boxes r' := by
    simp only [put_key hhome, Boxed]
    exact hboxes r'
  stands := by
    simp only [put_key hhome, put_home hhome, entry]
    rw [Role.forall_iff r, put_engine, put_engine_other]
    exact ⟨hstands, h.stands r.other⟩

end Put

theorem put_side (c : Correspondence) (r : Role) : c.put r (c.side r) = c := by
  have : ∀ r', (c.put r (c.side r)).engine r' = c.engine r' := by
    rw [Role.forall_iff r, put_engine, put_engine_other]
    exact ⟨rfl, rfl⟩
  exact congrArg (fun engine => (⟨engine, c.exchange⟩ : Correspondence)) (funext this)

theorem letters_of_keeps {events : List Negotiation.Event} (h : c.exchange.Keeps (c.key r) events) :
    (c.talk id).letters r = events.filterMap (·.letter? id) := by
  show (c.exchange.waiting (c.key r)).filterMap _ = _
  rw [Exchange.waiting_of_keeps h]

theorem place_of_entry {d : Dialogue} (h : c.entry r id = some d) :
    (c.talk id).place r = some d.place := by
  show (c.entry r id).map _ = _
  rw [h]
  rfl

/-- A side has taken a step, and its message has got to the end of the other's mailbox. -/
theorem Joined.sends (h : c.Joined id) (engine : Engine) (hhome : engine.home = c.home r)
    (hholds : engine.Holds fun _ => True) {d : Dialogue} (hd : engine.table.get? id = some d)
    (hstands : d.Stands (c.home r) (c.key r.other) id d.state d.lastAnswer)
    {events : List Negotiation.Event} (hbox : c.exchange.Keeps (c.key r.other) events)
    (hboxed : c.Boxed id r.other events) {m : Outgoing} (hid : m.dialogue = id) {c' : Correspondence}
    (hc : c' = c.put r ⟨engine, c.exchange.setMailbox (c.key r.other)
      { events := events ++ [.agent (m.delivered (.ofKey (c.key r)))] }⟩) :
    c'.Joined id ∧ c'.talk id = (c.talk id).saying r d.place (m.delivered (.ofKey (c.key r))) := by
  subst hc
  refine ⟨h.put hhome hholds (h.boxes_setMailbox ?_) ?_, ?_⟩
  · intro e he hid'
    rcases List.mem_append.1 he with he | he
    · exact hboxed e he hid'
    · rw [Parley.other_other]
      exact ⟨_, List.mem_singleton.1 he, Outgoing.key_originFor ..⟩
  · intro d' hd'
    obtain rfl := Option.some.inj (hd.symm.trans hd')
    exact hstands
  · rw [talk_put hhome]
    refine Talk.ext ?_ ((letters_setMailbox h.apart r.other _).trans ?_)
    · rw [hd]
      rfl
    · rw [List.filterMap_append, ← letters_of_keeps hbox]
      simp [Talk.saying, Event.letter?, Outgoing.delivered, hid]

/-- A side has taken the first event that waits for it. -/
theorem Joined.takes (h : c.Joined id) (engine : Engine) (hhome : engine.home = c.home r)
    (hholds : engine.Holds fun _ => True)
    (hstands : ∀ d, engine.table.get? id = some d →
      d.Stands (c.home r) (c.key r.other) id d.state d.lastAnswer)
    {rest : List Negotiation.Event} (hrest : c.Boxed id r rest) {c' : Correspondence}
    (hc : c' = c.put r ⟨engine, c.exchange.setMailbox (c.key r) { events := rest }⟩) :
    c'.Joined id ∧ c'.talk id = (c.talk id).hearing r ((engine.table.get? id).map Dialogue.place)
      (rest.filterMap (·.letter? id)) := by
  subst hc
  refine ⟨h.put hhome hholds (h.boxes_setMailbox hrest) hstands, ?_⟩
  rw [talk_put hhome]
  exact Talk.ext rfl (letters_setMailbox h.apart r rest)

/-! ### What one event does -/

section Step

variable {full : Role → Prop} {e : Event}

/-- A step that one side sends, or may not send. -/
theorem turn_answer (h : c.Joined id)
    (hroom : ∀ r, (c.exchange.waiting (c.key r)).length < c.exchange.capacity) (body : Body)
    (he : e = .act r (.answer id body)) : (c.step now e).Joined id ∧
      Talk.Turn id full (c.talk id) e (c.line? id now e) ((c.step now e).talk id) := by
  subst he
  cases ha : (c.engine r).answering now id body with
  | error f =>
    have hout : c.carryOut r now (.answer id body) = (.error f, c.side r) := by
      rw [carryOut, Linked.carryOut, Linked.reply, side, ha]
    rw [step, line?, hout, put_side]
    exact ⟨h, .still⟩
  | ok result =>
    obtain ⟨d, st, hd, hst, hm, hengine⟩ := Engine.answering_eq_ok_iff.1
      (show (c.engine r).answering now id body = .ok (result.1, result.2) from ha)
    obtain ⟨own, hown, -⟩ := h.boxes r
    obtain ⟨events, hbox, hboxed⟩ := h.boxes r.other
    have hlength := hroom r.other
    rw [Exchange.waiting_of_keeps hbox] at hlength
    have hstands := h.stands r d hd
    have hout : c.carryOut r now (.answer id body) = (.ok (), ⟨result.2,
        c.exchange.setMailbox (c.key r.other)
          { events := events ++ [.agent (result.1.delivered (.ofKey (c.key r)))] }⟩) := by
      rw [hm, hengine]
      exact Linked.reply_eq (s := c.side r) now rfl (h.named r) hd hstands hst hown hbox hlength
    have hid : result.1.dialogue = id := hm ▸ rfl
    have hline : c.line? id now (.act r (.answer id body)) =
        some (.sent r (result.1.delivered (.ofKey (c.key r)))) := by
      rw [line?, hout, Engine.handover?, ha]
      exact if_pos hid
    have hput : (d.sent now st).id = id := hstands.id
    obtain ⟨hjoined, htalk⟩ := h.sends (r := r) result.2 (d := d.sent now st) (hengine ▸ rfl)
      (hengine ▸ (h.holds r).put trivial) (by rw [hengine, Engine.get?_put, if_pos hput])
      (hstands.sent st now) hbox hboxed hid (congrArg (c.put r) (congrArg Prod.snd hout))
    refine ⟨hjoined, ?_⟩
    rw [hline, show (c.step now (.act r (.answer id body))).talk id = _ from htalk,
      show (d.sent now st).place = ⟨d.role, st, result.1.answer, result.1.target⟩ from hm ▸ rfl]
    refine .wrote (m := result.1.delivered _) ⟨_, rfl⟩ (place_of_entry hd) ?_ (hm ▸ rfl) (hm ▸ rfl)
    rw [show (result.1.delivered (.ofKey (c.key r))).body = body from hm ▸ rfl]
    exact hst

/-- An event that sends nothing ends the dialogue on one side, or may not do so. -/
theorem turn_event (h : c.Joined id) {t : Transition} (ht : ∀ step dir, t ≠ .step step dir)
    (he : e = .act r (.event id t)) : (c.step now e).Joined id ∧
      Talk.Turn id full (c.talk id) e (c.line? id now e) ((c.step now e).talk id) := by
  subst he
  have hline : c.line? id now (.act r (.event id t)) = none := by
    rw [line?]
    split
    · next hm => cases hm
    · rfl
  rw [hline]
  cases ha : (c.engine r).apply id t now with
  | error f =>
    have hout : c.carryOut r now (.event id t) = (.error f, c.side r) := by
      simp only [carryOut, Linked.carryOut, Linked.apply, Linked.done, side, ha]
      rfl
    rw [step, hout, put_side]
    exact ⟨h, .still⟩
  | ok result =>
    obtain ⟨d, d', hd, happly, -, hengine⟩ := Engine.apply_eq_ok_iff.1
      (show (c.engine r).apply id t now = .ok (result.1, result.2) from ha)
    obtain ⟨s, hs, hd'⟩ := Dialogue.apply_eq_ok_iff.1 happly
    obtain ⟨reason, rfl⟩ := State.closed_of_lifecycle ht hs
    have hout : c.carryOut r now (.event id t) = (.ok (), ⟨(c.engine r).put d', c.exchange⟩) := by
      simp only [carryOut, Linked.carryOut, Linked.apply, Linked.done, side, ha, hengine]
      rfl
    have hplace : d'.place = { d.place with state := .closed reason } := by
      rw [hd']
      split <;> rfl
    have hstands := h.stands r d hd
    have hid : d'.id = id := (Dialogue.apply_id happly).trans hstands.id
    rw [step, hout]
    refine ⟨h.put rfl ((h.holds r).put trivial) h.boxes ?_, ?_⟩
    · intro d'' hg
      rw [Engine.get?_put, if_pos hid] at hg
      obtain rfl := Option.some.inj hg
      rw [hd']
      split <;> exact ⟨hstands.id, hstands.peer, rfl, rfl, hstands.replies⟩
    · rw [talk_put rfl, Engine.get?_put, if_pos hid, Option.map_some, hplace]
      exact .ended ⟨t, rfl⟩ (place_of_entry hd) rfl

/-- A message that a side takes is for where it stands. -/
theorem turn_accepted (h : c.Joined id) {m : Message} {rest : List Negotiation.Event}
    (hbox : c.exchange.Keeps (c.key r) (.agent m :: rest)) (hrest : c.Boxed id r rest)
    (hid : m.dialogue = id) (ho : m.origin.key = c.key r.other) {d' : Dialogue} {engine : Engine}
    (hr : (c.engine r).receive m now = .ok (d', engine)) {c' : Correspondence}
    (hc : c' = c.put r ⟨engine, c.exchange.setMailbox (c.key r) { events := rest }⟩) : c'.Joined id ∧
      Talk.Turn id full (c.talk id) e (some (.taken r m (.ok ()))) (c'.talk id) := by
  obtain ⟨hreceive, rfl, -⟩ := Engine.receive_eq_ok_iff.1 hr
  obtain ⟨hexpects, s, hs, rfl⟩ := Dialogue.receive_eq_ok_iff.1 hreceive
  subst hid
  set d := (c.engine r).found m now with hfound
  -- where the side stands: in the dialogue that it holds, or before a new one
  have hplace : (c.talk m.dialogue).place r = some d.place ∨
      (c.talk m.dialogue).place r = none ∧ d.place = .start := by
    rw [hfound, Engine.found]
    cases hd : (c.engine r).table.get? m.dialogue with
    | some d₀ => exact .inl (place_of_entry hd)
    | none => exact .inr ⟨Option.map_eq_none_iff.2 hd, rfl⟩
  have hstands : (d.received m (m.route (c.engine r).home) now s).Stands (c.home r) (c.key r.other)
      m.dialogue s m.answer := by
    rw [hfound, Engine.found]
    cases hd : (c.engine r).table.get? m.dialogue with
    | some d₀ => exact (h.stands r d₀ hd).received (h.named r) ho s now
    | none => exact Dialogue.stands_called (h.named r) (h.named r.other) ho s now
  have hentry : ((c.engine r).put (d.received m (m.route (c.engine r).home) now s)).table.get? m.dialogue =
      some (d.received m (m.route (c.engine r).home) now s) := by
    rw [Engine.get?_put, if_pos hstands.id]
  obtain ⟨hjoined, htalk⟩ := h.takes (r := r)
    ((c.engine r).put (d.received m (m.route (c.engine r).home) now s)) rfl
    ((h.holds r).put trivial) (fun d' hd' => Option.some.inj (hentry.symm.trans hd') ▸ hstands) hrest hc
  refine ⟨hjoined, ?_⟩
  rw [htalk, hentry]
  refine .accepted (p := d.place) ?_ hplace hexpects.2.1 hexpects.2.2 hs
  rw [letters_of_keeps hbox, List.filterMap_cons, Event.letter?_agent]

/-- A message that a side refuses is not for where it stands, or there is no room. -/
theorem turn_refused (h : c.Joined id) (hfull : ∀ r, (c.engine r).table.isFull → full r) {m : Message}
    {rest : List Negotiation.Event} (hbox : c.exchange.Keeps (c.key r) (.agent m :: rest))
    (hrest : c.Boxed id r rest) (hid : m.dialogue = id) (ho : m.origin.key = c.key r.other)
    {f : Failure} (hr : (c.engine r).receive m now = .error f) {c' : Correspondence}
    (hc : c' = c.put r ⟨c.engine r, c.exchange.setMailbox (c.key r) { events := rest }⟩) : c'.Joined id ∧
      Talk.Turn id full (c.talk id) e (some (.taken r m (.error f))) (c'.talk id) := by
  subst hid
  have ht := Engine.receive_eq_error_iff.1 hr
  obtain ⟨hjoined, htalk⟩ := h.takes (r := r) _ rfl (h.holds r) (h.stands r) hrest hc
  refine ⟨hjoined, htalk ▸ .refused ?_ ?_ ?_⟩
  · rw [letters_of_keeps hbox, List.filterMap_cons, Event.letter?_agent]
  · intro p hp
    obtain ⟨d, hd, rfl⟩ := Option.map_eq_some_iff.1 hp
    have hstands := h.stands r d hd
    rw [Table.receive_held hd] at ht
    rcases d.receive_cases m (m.route (c.engine r).home) now with
      ⟨hne, -⟩ | ⟨-, hf, hrd⟩ | ⟨-, hf, hs, -⟩ | ⟨-, -, d', -, hrd⟩
    · exact absurd (ho.trans hstands.peer.symm) hne
    · rw [hrd] at ht
      exact (if_neg hf).mpr (hstands.id ▸ (Except.error.inj ht).symm)
    · exact (if_pos hf).mpr hs
    · rw [hrd] at ht
      cases ht
  · intro hp hopens htarget hanswer
    by_contra hroom
    have hd : (c.engine r).table.get? m.dialogue = none := Option.map_eq_none_iff.1 hp
    have hsize : (c.engine r).table.size < (c.engine r).table.limits.capacity := by
      have hn := mt (hfull r) hroom
      rwa [Table.isFull, decide_eq_true_iff, Nat.not_le] at hn
    obtain ⟨result, hok⟩ := (Table.answersUnheld hd (m.route (c.engine r).home) now).taken.2
      ⟨Table.opens_iff.1 hopens, hsize, htarget, UInt32.pos_iff_ne_zero.1 hanswer⟩
    rw [ht] at hok
    cases hok

/-- One side takes a message of the dialogue or another event, or nothing waits for it. -/
theorem turn_read (h : c.Joined id) (hfull : ∀ r, (c.engine r).table.isFull → full r)
    (he : e = .read r) : (c.step now e).Joined id ∧
      Talk.Turn id full (c.talk id) e (c.line? id now e) ((c.step now e).talk id) := by
  obtain ⟨events, hbox, hboxed⟩ := h.boxes r
  cases events with
  | nil =>
    have htake : c.exchange.take (c.key r) = (none, c.exchange) :=
      Exchange.take_of_waiting_nil (Exchange.waiting_of_keeps hbox)
    simp only [he, step, line?, htake]
    exact ⟨h, .still⟩
  | cons ev rest =>
    have hrest : c.Boxed id r rest := fun e he => hboxed e (List.mem_cons_of_mem _ he)
    have hstep : c.step now e = c.put r ⟨((c.engine r).observe now ev).2.1,
        c.exchange.setMailbox (c.key r) { events := rest }⟩ := by
      simp only [he, step, Exchange.take_of_keeps hbox]
    have hline : c.line? id now e =
        (ev.letter? id).map fun m => .taken r m ((c.engine r).observe now ev).2.2 := by
      simp only [he, line?, Exchange.take_of_keeps hbox]
    by_cases hc : ev.Concerns id
    · obtain ⟨m, rfl, ho⟩ := hboxed ev List.mem_cons_self hc
      rw [hline, show (Event.agent m).letter? id = some m from if_pos hc, Option.map_some]
      cases hr : (c.engine r).receive m now with
      | ok result =>
        simp only [Engine.observe, hr] at hstep ⊢
        exact turn_accepted h hbox hrest hc ho hr hstep
      | error f =>
        simp only [Engine.observe, hr] at hstep ⊢
        exact turn_refused h hfull hbox hrest hc ho hr hstep
    · have hentry := Engine.observe_entry (h.holds r) now hc
      obtain ⟨hjoined, htalk⟩ := h.takes (r := r) _ (Engine.observe_home ..)
        ((h.holds r).observe (lasting_true _) fun _ _ => trivial)
        (by rw [hentry]; exact h.stands r) hrest hstep
      refine ⟨hjoined, ?_⟩
      have hsame : (c.step now e).talk id = c.talk id := by
        rw [htalk, hentry]
        refine Talk.ext (Function.update_eq_self r _) ?_
        rw [Talk.hearing, ← Function.update_eq_self r (c.talk id).letters, letters_of_keeps hbox,
          List.filterMap_cons, Event.letter?_eq_none hc, Function.update_idem]
      rw [hline, Event.letter?_eq_none hc, hsame]
      exact .still

/-- STEP: an event within a dialogue does one of five things to the talk, and the sides stay joined. -/
theorem Joined.step_turn (h : c.Joined id) (now : Millis)
    (hroom : ∀ r, (c.exchange.waiting (c.key r)).length < c.exchange.capacity)
    (hfull : ∀ r, (c.engine r).table.isFull → full r) (he : e.Within id) : (c.step now e).Joined id ∧
      Talk.Turn id full (c.talk id) e (c.line? id now e) ((c.step now e).talk id) := by
  cases e with
  | act r deed =>
    cases deed with
    | opening peer body => cases he
    | answer id' body =>
      obtain rfl : id' = id := he
      exact turn_answer h hroom body rfl
    | event id' t =>
      obtain ⟨rfl, ht⟩ := he
      exact turn_event h ht rfl
  | read r => exact turn_read h hfull rfl

end Step

/-! ### The first message -/

/-- Before the first message nothing is held and nothing waits. -/
theorem Opens.joined {peer : Address} {body : Body} (h : c.Opens id now peer body)
    (hn : c.entry .initiator id = none) : c.Joined id ∧ c.talk id = ⟨fun _ => none, fun _ => []⟩ := by
  have hentry : ∀ r, c.entry r id = none := (Role.forall_iff .initiator).2 ⟨hn, h.unheld⟩
  have hbox : ∀ r, ∃ events, c.exchange.Keeps (c.key r) events ∧ ∀ e ∈ events, e.letter? id = none :=
    fun r =>
      have ⟨events, hkeeps, hboxed⟩ := h.boxes r
      ⟨events, hkeeps, fun e he => Event.letter?_eq_none (hboxed e he)⟩
  refine ⟨⟨?_, h.named, h.holds, fun r => ?_, fun r d hd => ?_⟩,
    Talk.ext (funext fun r => ?_) (funext fun r => ?_)⟩
  · exact (Role.forall_iff .initiator).2 ⟨h.apart, h.apart.symm⟩
  · obtain ⟨events, hkeeps, hboxed⟩ := h.boxes r
    exact ⟨events, hkeeps, fun e he hc => absurd hc (hboxed e he)⟩
  · rw [hentry r] at hd
    cases hd
  · exact Option.map_eq_none_iff.2 (hentry r)
  · obtain ⟨events, hkeeps, hnone⟩ := hbox r
    rw [letters_of_keeps hkeeps]
    exact List.filterMap_eq_nil_iff.2 hnone

/-- The first message gets to the end of the other side's mailbox. -/
theorem Opens.carryOut {peer : Address} {body : Body} (h : c.Opens id now peer body)
    (hroom : ∀ r, (c.exchange.waiting (c.key r)).length < c.exchange.capacity) :
    let d := Dialogue.new id peer .initiator now
    let m := Engine.outgoing id (d.stamp (c.home .initiator)) body
    ∃ a s events, c.entry .initiator id = none ∧ State.idle.next? (.send body.step) = some s ∧
      c.exchange.Keeps (c.key .responder) events ∧ (∀ e ∈ events, ¬ e.Concerns id) ∧
      (c.engine .initiator).handover? now (.opening peer body) =
        some (m, ((c.engine .initiator).allocating a).put (d.sent now s)) ∧
      c.carryOut .initiator now (.opening peer body) =
        (.ok (), ⟨((c.engine .initiator).allocating a).put (d.sent now s),
          c.exchange.setMailbox (c.key .responder)
            { events := events ++ [.agent (m.delivered (.ofKey (c.key .initiator)))] }⟩) := by
  intro d m
  obtain ⟨own, hown, -⟩ := h.boxes .initiator
  obtain ⟨events, hbox, hboxed⟩ := h.boxes .responder
  have hlength := hroom .responder
  rw [Exchange.waiting_of_keeps hbox] at hlength
  have hopened := h.opened
  rcases (c.side .initiator).engine.opening_cases now peer body with ⟨f, a, ho⟩ | ⟨id', a, s, hn, hs, ho⟩
  · rw [Linked.openDialogue, ho] at hopened
    cases hopened
  · set d' := Dialogue.new id' peer .initiator now with hd'
    set m' := Engine.outgoing id' (d'.stamp (c.home .initiator)) body with hm'
    have hmessage : (c.engine .initiator).opening now peer body =
        (.ok m', ((c.engine .initiator).allocating a).put (d'.sent now s)) := ho
    have hroute : m'.route.Leads .outbound (c.key .initiator) peer.key :=
      Dialogue.leads_sendRoute (d := d') (h.named .initiator)
        ⟨h.called.symm ▸ h.named .responder, by rintro r ⟨⟩⟩
    have hsent := Linked.transmit_ok
      (s := ⟨((c.engine .initiator).allocating a).put (d'.sent now s), c.exchange⟩) hroute hown
      (h.called ▸ hbox) hlength
    have hout : (c.side .initiator).openDialogue (Exchange.connection (c.key .initiator)) now peer body =
        (.ok id', ⟨((c.engine .initiator).allocating a).put (d'.sent now s), c.exchange.setMailbox peer.key
          { events := events ++ [.agent (m'.delivered (.ofKey (c.key .initiator)))] }⟩) := by
      simp only [Linked.openDialogue, side, hmessage, hsent]
      rfl
    rw [hout] at hopened
    obtain rfl : id' = id := Except.ok.inj hopened
    refine ⟨a, s, events, hn, hs, hbox, hboxed, ?_, ?_⟩
    · rw [Engine.handover?, hmessage]
    · rw [h.called] at hout
      exact congrArg Linked.done hout

/-- The talk behind the first message. -/
theorem Opens.turn {peer : Address} {body : Body} (h : c.Opens id now peer body)
    (hroom : ∀ r, (c.exchange.waiting (c.key r)).length < c.exchange.capacity) :
    (c.run [first now peer body]).Joined id ∧
      ∃ m s, c.transcript id [first now peer body] = [.sent .initiator m] ∧ m.body = body ∧ m.answer = 1 ∧
        m.target = 0 ∧ State.idle.next? (.send body.step) = some s ∧
        (c.run [first now peer body]).talk id = (⟨fun _ => none, fun _ => []⟩ : Talk).saying .initiator
          ⟨.initiator, s, 1, 0⟩ m := by
  obtain ⟨a, s, events, hn, hs, hbox, hboxed, hhand, hcarry⟩ := h.carryOut hroom
  set d := Dialogue.new id peer .initiator now
  set m := Engine.outgoing id (d.stamp (c.home .initiator)) body
  have hline : c.line? id now (.act .initiator (.opening peer body)) =
      some (.sent .initiator (m.delivered (.ofKey (c.key .initiator)))) := by
    rw [line?, hcarry, hhand]
    exact if_pos rfl
  obtain ⟨hjoined, htalk⟩ := h.joined hn
  have hput : (d.sent now s).Stands (c.home .initiator) (c.key .responder) id s 1 :=
    ⟨rfl, h.called, rfl, rfl, h.called.symm ▸ h.named .responder, by rintro r ⟨⟩⟩
  obtain ⟨hjoined', htalk'⟩ := hjoined.sends (r := .initiator) (d := d.sent now s)
    (((c.engine .initiator).allocating a).put (d.sent now s)) rfl
    (Engine.Holds.put (e := (c.engine .initiator).allocating a) (h.holds .initiator) trivial)
    (by rw [Engine.get?_put, if_pos hput.id]) hput hbox (fun e he hc => absurd hc (hboxed e he)) rfl
    (congrArg (c.put .initiator) (congrArg Prod.snd hcarry))
  have hlines : c.transcript id [first now peer body] =
      [.sent .initiator (m.delivered (.ofKey (c.key .initiator)))] := by
    rw [transcript, first, hline]
    rfl
  exact ⟨hjoined', m.delivered (.ofKey (c.key .initiator)), s, hlines, rfl, rfl, rfl, hs, htalk ▸ htalk'⟩

/-! ### Runs -/

theorem run_append (c : Correspondence) (es es' : List (Millis × Event)) :
    c.run (es ++ es') = (c.run es).run es' :=
  List.foldl_append ..

theorem run_concat (c : Correspondence) (es : List (Millis × Event)) (e : Millis × Event) :
    c.run (es ++ [e]) = (c.run es).step e.1 e.2 :=
  run_append c es [e]

theorem transcript_append (c : Correspondence) (id : DialogueId) (es es' : List (Millis × Event)) :
    c.transcript id (es ++ es') = c.transcript id es ++ (c.run es).transcript id es' := by
  induction es generalizing c with
  | nil => rfl
  | cons e es ih =>
    rw [List.cons_append, transcript, transcript, ih, List.append_assoc]
    rfl

theorem transcript_concat (c : Correspondence) (id : DialogueId) (es : List (Millis × Event))
    (e : Millis × Event) : c.transcript id (es ++ [e]) =
      c.transcript id es ++ ((c.run es).line? id e.1 e.2).toList := by
  rw [transcript_append]
  exact congrArg _ (List.append_nil _)

/-- An element of a list with one behind it is that one, or is in the list. -/
theorem concat_eq_append_cons {α : Type} {xs pre post : List α} {x y : α}
    (h : xs ++ [x] = pre ++ y :: post) :
    (pre = xs ∧ y = x) ∨ ∃ post', xs = pre ++ y :: post' := by
  rcases List.eq_nil_or_concat' post with rfl | ⟨post', z, rfl⟩
  · obtain ⟨hxs, hx⟩ := List.append_inj' h rfl
    exact .inl ⟨hxs.symm, (List.singleton_inj.1 hx).symm⟩
  · rw [← List.cons_append, ← List.append_assoc] at h
    exact .inr ⟨post', (List.append_inj' h rfl).1⟩

/-- A line of a transcript is written down by an event, behind the lines of the events before it. -/
theorem exists_of_transcript {es : List (Millis × Event)} {L post : List Line} {l : Line}
    (h : c.transcript id es = L ++ l :: post) : ∃ pre e, pre ++ [e] <+: es ∧ c.transcript id pre = L ∧
      (c.run pre).line? id e.1 e.2 = some l := by
  induction es using List.reverseRecOn generalizing post with
  | nil => simp [transcript] at h
  | append_singleton es e ih =>
    rw [transcript_concat] at h
    cases hl : (c.run es).line? id e.1 e.2 with
    | none =>
      rw [hl, Option.toList_none, List.append_nil] at h
      obtain ⟨pre, e', hpre, hL, hline⟩ := ih h
      exact ⟨pre, e', hpre.trans (List.prefix_append ..), hL, hline⟩
    | some l' =>
      rw [hl, Option.toList_some] at h
      rcases concat_eq_append_cons h with ⟨rfl, rfl⟩ | ⟨post', h⟩
      · exact ⟨es, e, List.prefix_rfl, rfl, hl⟩
      · obtain ⟨pre, e', hpre, hL, hline⟩ := ih h
        exact ⟨pre, e', hpre.trans (List.prefix_append ..), hL, hline⟩

section Runs

variable {peer : Address} {body : Body} {es : List (Millis × Event)} {I : List (Millis × Event) → Prop}

/-- What holds behind the first message, and is kept by every turn, holds behind every run. -/
theorem Opens.run_keeps (h : c.Opens id now peer body) (hroom : c.Roomy (first now peer body :: es))
    (hes : ∀ e ∈ es, e.2.Within id) (hfirst : I [])
    (hturn : ∀ pre e, pre ++ [e] <+: es → (c.run (first now peer body :: pre)).Joined id → I pre →
      Talk.Turn id (fun r => ((c.run (first now peer body :: pre)).engine r).table.isFull)
        ((c.run (first now peer body :: pre)).talk id) e.2
        ((c.run (first now peer body :: pre)).line? id e.1 e.2)
        ((c.run (first now peer body :: (pre ++ [e]))).talk id) →
      I (pre ++ [e])) :
    (c.run (first now peer body :: es)).Joined id ∧ I es := by
  induction es using List.reverseRecOn with
  | nil => exact ⟨(h.turn (hroom [] List.nil_prefix)).1, hfirst⟩
  | append_singleton es e ih =>
    have hpre : first now peer body :: es <+: first now peer body :: (es ++ [e]) :=
      List.cons_prefix_cons.2 ⟨rfl, List.prefix_append ..⟩
    obtain ⟨hjoined, hI⟩ := ih (fun pre hpre' => hroom pre (hpre'.trans hpre))
      (fun e he => hes e (List.mem_append_left _ he))
      (fun pre e hpre' => hturn pre e (hpre'.trans (List.prefix_append ..)))
    obtain ⟨hjoined', ht⟩ := hjoined.step_turn e.1 (hroom _ hpre) (fun _ hf => hf)
      (hes e (List.mem_append_right _ List.mem_cons_self))
    have hstep : c.run (first now peer body :: (es ++ [e])) =
        (c.run (first now peer body :: es)).step e.1 e.2 := run_concat c (first now peer body :: es) e
    refine ⟨hstep ▸ hjoined', hturn es e List.prefix_rfl hjoined hI ?_⟩
    rw [hstep]
    exact ht

/-- RUN: what holds behind the first message, and is kept by every turn, holds at every event of a run;
    and the event is a turn. -/
theorem Opens.run_turns (h : c.Opens id now peer body) (hroom : c.Roomy (first now peer body :: es))
    (hes : ∀ e ∈ es, e.2.Within id) (hfirst : I [])
    (hturn : ∀ pre e, pre ++ [e] <+: es → (c.run (first now peer body :: pre)).Joined id → I pre →
      Talk.Turn id (fun r => ((c.run (first now peer body :: pre)).engine r).table.isFull)
        ((c.run (first now peer body :: pre)).talk id) e.2
        ((c.run (first now peer body :: pre)).line? id e.1 e.2)
        ((c.run (first now peer body :: (pre ++ [e]))).talk id) →
      I (pre ++ [e]))
    {pre : List (Millis × Event)} {e : Millis × Event} (hpre : pre ++ [e] <+: es) :
    (c.run (first now peer body :: pre)).Joined id ∧ I pre ∧
      Talk.Turn id (fun r => ((c.run (first now peer body :: pre)).engine r).table.isFull)
        ((c.run (first now peer body :: pre)).talk id) e.2
        ((c.run (first now peer body :: pre)).line? id e.1 e.2)
        ((c.run (first now peer body :: (pre ++ [e]))).talk id) := by
  have hpart : pre <+: es := (List.prefix_append ..).trans hpre
  have hpart' : first now peer body :: pre <+: first now peer body :: es :=
    List.cons_prefix_cons.2 ⟨rfl, hpart⟩
  obtain ⟨hjoined, hI⟩ := h.run_keeps (fun pre' hpre' => hroom pre' (hpre'.trans hpart'))
    (fun e he => hes e (hpart.subset he)) hfirst (fun pre' e' hpre' => hturn pre' e' (hpre'.trans hpart))
  obtain ⟨-, ht⟩ := hjoined.step_turn e.1 (hroom _ hpart') (fun _ hf => hf)
    (hes e (hpre.subset (List.mem_append_right _ List.mem_cons_self)))
  refine ⟨hjoined, hI, ?_⟩
  rw [show c.run (first now peer body :: (pre ++ [e])) = _ from run_concat c (first now peer body :: pre) e]
  exact ht

end Runs

/-! ### Two new engines -/

/-- Two new engines that are connected to a new broker. -/
def fresh (keys : Role → String) (starts : Role → UInt32) : Correspondence where
  engine r := { home := .ofKey (keys r), table := .new {} (starts r) }
  exchange := ((Exchange.new Exchange.defaultCapacity).setMailbox (keys .initiator) {}).setMailbox
    (keys .responder) {}

theorem opens_fresh {keys : Role → String} {starts : Role → UInt32} {peer : Address} {body : Body}
    (hapart : keys .initiator ≠ keys .responder) (hnamed : ∀ r, keys r ≠ "")
    (hpeer : peer.key = keys .responder)
    (hopened : (((fresh keys starts).side .initiator).openDialogue
      (Exchange.connection (keys .initiator)) now peer body).1 = .ok id) :
    (fresh keys starts).Opens id now peer body where
  apart := hapart
  named := hnamed
  holds r id d hd := by simp [fresh] at hd
  boxes := (Role.forall_iff .responder).2
    ⟨⟨[], Exchange.keeps_setMailbox .., by simp⟩,
      ⟨[], (Exchange.keeps_setMailbox ..).setMailbox_ne hapart.symm _, by simp⟩⟩
  unheld := rfl
  called := hpeer
  opened := hopened

/-- Alice, who numbers her dialogues from 1, and Bob, who numbers his from 100. -/
def couple : Correspondence :=
  fresh (fun | .initiator => "alice" | .responder => "bob") (fun | .initiator => 1 | .responder => 100)

theorem opens_couple (now : Millis) {body : Body} (h : body.step.opens) :
    couple.Opens 1 now (.ofKey "bob") body := by
  refine opens_fresh (by decide) (by rintro (_ | _) <;> decide) rfl ?_
  cases body with
  | cfp _ => rfl
  | message _ => rfl
  | _ => cases h

/-- There is room in both mailboxes if there is behind each number of events. -/
theorem roomy_of_take {es : List (Millis × Event)} (h : ∀ i < es.length + 1,
    ((c.run (es.take i)).exchange.waiting ((c.run (es.take i)).key .initiator)).length <
      (c.run (es.take i)).exchange.capacity ∧
    ((c.run (es.take i)).exchange.waiting ((c.run (es.take i)).key .responder)).length <
      (c.run (es.take i)).exchange.capacity) : c.Roomy es := by
  intro pre hpre
  rw [Role.forall_iff .initiator]
  exact Parley.forall_prefixes (P := fun pre =>
    ((c.run pre).exchange.waiting ((c.run pre).key .initiator)).length < (c.run pre).exchange.capacity ∧
    ((c.run pre).exchange.waiting ((c.run pre).key .responder)).length < (c.run pre).exchange.capacity)
    h pre hpre

end Correspondence

end Negotiation
