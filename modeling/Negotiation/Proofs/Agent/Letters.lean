import Negotiation.Proofs.Agent.Routing
import Negotiation.Proofs.Table.Opening
import Negotiation.Proofs.Exchange

/-!
Agents that write to each other over a broker. `Stands` tells where one agent stands in a dialogue,
and `Arrives` what a message in a mailbox says. A step that is legal where its sender stands always
gets into the mailbox of the counterparty if there is room; a message that fits where its receiver
stands is always taken.
-/

namespace Negotiation

/-- A message without its route: its numbers and what it says. -/
structure Letter where
  answer : AnswerId
  target : AnswerId
  body : Body

/-- An event brings a letter of an agent in a dialogue. -/
def Letter.Arrives (l : Letter) (sender : String) (id : DialogueId) (e : Event) : Prop :=
  ∃ m, e = .agent m ∧ m.origin.key = sender ∧ m.dialogue = id ∧ m.answer = l.answer ∧
    m.target = l.target ∧ m.body = l.body

namespace Dialogue

/-- Where an agent stands in a dialogue with another. -/
structure Stands (home : Address) (peer : String) (id : DialogueId) (state : State) (last : AnswerId)
    (d : Dialogue) : Prop where
  id : d.id = id
  peer : d.counterparty.key = peer
  state : d.state = state
  last : d.lastAnswer = last
  replies : d.RepliesHome home

namespace Stands

variable {home : Address} {peer : String} {id : DialogueId} {s s' : State} {a : AnswerId} {d : Dialogue}
  {now : Millis}

theorem sent (h : d.Stands home peer id s a) (s' : State) (now : Millis) :
    (d.sent now s').Stands home peer id s' (AnswerId.next a) :=
  ⟨h.id, h.peer, rfl, congrArg AnswerId.next h.last, h.replies⟩

theorem received (hh : home.key ≠ "") (h : d.Stands home peer id s a) {m : Message}
    (ho : m.origin.key = peer) (s' : State) (now : Millis) :
    (d.received m (m.route home) now s').Stands home peer id s' m.answer := by
  refine ⟨h.id, h.peer, rfl, rfl, h.replies.1, ?_⟩
  rintro r ⟨⟩
  have hkey : m.origin.key = d.counterparty.key := ho.trans h.peer.symm
  exact hkey ▸ Route.leads_received (hkey ▸ h.replies.1) hh _ _

/-- A message of the counterparty that answers the last step is taken. -/
theorem receive_ok (h : d.Stands home peer id s a) {m : Message} {route : Route}
    (ho : m.origin.key = peer) (ht : m.target = a) (hlt : a < m.answer)
    (hs : s.next? (.receive m.body.step) = some s') :
    d.receive m route now = .ok (d.received m route now s') := by
  refine receive_eq_ok_iff.2 ⟨⟨decide_eq_true (ho.trans h.peer.symm), ?_, ?_⟩, s', h.state ▸ hs, rfl⟩
  · rw [ht, h.last]
  · rwa [h.last]

end Stands

/-- The dialogue that a call opens on its receiver's side. -/
theorem stands_called {home : Address} (hh : home.key ≠ "") {m : Message} {peer : String}
    (hp : peer ≠ "") (ho : m.origin.key = peer) (s : State) (now : Millis) :
    ((Dialogue.new m.dialogue m.origin .responder now).received m (m.route home) now s).Stands home peer
      m.dialogue s m.answer := by
  refine ⟨rfl, ho, rfl, rfl, ho ▸ hp, ?_⟩
  rintro r ⟨⟩
  exact Route.leads_received (ho ▸ hp) hh _ _

end Dialogue

namespace Engine

variable {e : Engine} {ev : Event} {peer : String} {id : DialogueId} {s s' : State} {a : AnswerId}
  {d : Dialogue} {l : Letter}

/-- A letter that fits where the engine stands is taken and reported. -/
theorem observe_letter (now : Millis) (hh : e.home.key ≠ "") (hd : e.table.get? id = some d)
    (h : d.Stands e.home peer id s a) (hl : l.Arrives peer id ev) (ht : l.target = a)
    (hlt : a < l.answer) (hs : s.next? (.receive l.body.step) = some s') :
    ∃ d', d'.Stands e.home peer id s' l.answer ∧ d'.counterparty = d.counterparty ∧
      e.observe now ev = (.ofBody d' l.body, e.put d', .ok ()) := by
  obtain ⟨m, rfl, ho, rfl, ha, hmt, hb⟩ := hl
  refine ⟨d.received m (m.route e.home) now s', ha ▸ h.received hh ho s' now, rfl, ?_⟩
  have hr : e.receive m now = .ok (d.received m (m.route e.home) now s',
      e.put (d.received m (m.route e.home) now s')) := by
    refine receive_eq_ok_iff.2 ⟨?_, rfl, by simp [hd]⟩
    rw [found, hd]
    exact h.receive_ok ho (hmt.trans ht) (ha ▸ hlt) (hb ▸ hs)
  rw [observe, hr, ← hb]

/-- A call that arrives at an engine with room opens a dialogue. -/
theorem observe_call (now : Millis) (hh : e.home.key ≠ "") (hp : peer ≠ "")
    (hd : e.table.get? id = none) (hroom : ¬ e.table.isFull) (hl : l.Arrives peer id ev)
    (ht : l.target = 0) (hlt : 0 < l.answer) (hs : l.body.step = .cfp) :
    ∃ d', d'.Stands e.home peer id .cfpReceived l.answer ∧
      e.observe now ev = (.ofBody d' l.body, e.put d', .ok ()) := by
  obtain ⟨m, rfl, ho, rfl, ha, hmt, hb⟩ := hl
  refine ⟨_, ha ▸ Dialogue.stands_called hh hp ho .cfpReceived now, ?_⟩
  have hr : e.receive m now = .ok
      ((Dialogue.new m.dialogue m.origin .responder now).received m (m.route e.home) now .cfpReceived,
        e.put ((Dialogue.new m.dialogue m.origin .responder now).received m (m.route e.home) now
          .cfpReceived)) := by
    refine receive_eq_ok_iff.2 ⟨?_, rfl, fun _ => ⟨by rw [hb, hs]; rfl, hroom⟩⟩
    rw [found, hd, Option.getD_none]
    refine Dialogue.receive_eq_ok_iff.2 ⟨⟨decide_eq_true rfl, hmt.trans ht, ?_⟩, _, ?_, rfl⟩
    · exact ha ▸ hlt
    · rw [hb, hs]
      rfl
  rw [observe, hr, ← hb]

end Engine

namespace Linked

variable {s : Linked Exchange} {key peer : String} {id : DialogueId} {st st' : State} {a : AnswerId}
  {d : Dialogue} {body : Body} {own events : List Event}

/-- A message that is handed over gets into the mailbox of the agent that its route leads to. -/
theorem transmit_ok {m : Outgoing} (hroute : m.route.Leads .outbound key peer)
    (hown : s.link.Keeps key own) (hbox : s.link.Keeps peer events)
    (hroom : events.length < s.link.capacity) :
    s.transmit (Exchange.connection key) m = (.ok (), ⟨s.engine,
      s.link.setMailbox peer { events := events ++ [.agent (m.delivered (.ofKey key))] }⟩) := by
  obtain ⟨b, hdest, rfl⟩ := hroute.target
  have hdel := Exchange.deliver_of_keeps hown (show m.destination? = some b from hdest) hbox hroom
  rw [transmit]
  simp only [Exchange.connection, Exchange.submit, hdel]
  rfl

/-- A step that is legal where the engine stands is committed, and its message gets to the
counterparty. -/
theorem reply_eq (now : Millis) (hh : s.engine.home.key = key) (hk : key ≠ "")
    (hd : s.engine.table.get? id = some d) (h : d.Stands s.engine.home peer id st a)
    (hs : st.next? (.send body.step) = some st')
    (hown : s.link.Keeps key own) (hbox : s.link.Keeps peer events)
    (hroom : events.length < s.link.capacity) :
    s.reply (Exchange.connection key) now id body = (.ok (), ⟨s.engine.put (d.sent now st'),
      s.link.setMailbox peer { events := events ++
        [.agent ((Engine.outgoing id (d.stamp s.engine.home) body).delivered (.ofKey key))] }⟩) := by
  have hroute : (Engine.outgoing id (d.stamp s.engine.home) body).route.Leads .outbound key peer := by
    have := Dialogue.leads_sendRoute (hh.symm ▸ hk) h.replies
    rwa [hh, h.peer] at this
  rw [reply_of_legal (Exchange.connection key) now hd (h.state ▸ hs)]
  exact transmit_ok (s := ⟨s.engine.put (d.sent now st'), s.link⟩) hroute hown hbox hroom

/-- A step that is legal where the engine stands is committed and gets to the counterparty. -/
theorem reply_ok (now : Millis) (hh : s.engine.home = .ofKey key) (hk : key ≠ "")
    (hd : s.engine.table.get? id = some d) (h : d.Stands s.engine.home peer id st a)
    (hs : st.next? (.send body.step) = some st')
    (hown : s.link.Keeps key own) (hbox : s.link.Keeps peer events)
    (hroom : events.length < s.link.capacity) :
    ∃ ev, Letter.Arrives ⟨AnswerId.next a, a, body⟩ key id ev ∧
      s.reply (Exchange.connection key) now id body = (.ok (), ⟨s.engine.put (d.sent now st'),
        s.link.setMailbox peer { events := events ++ [ev] }⟩) :=
  ⟨_, ⟨_, rfl, Outgoing.key_originFor .., rfl, congrArg AnswerId.next h.last, h.last, rfl⟩,
    reply_eq now (congrArg Address.key hh) hk hd h hs hown hbox hroom⟩

/-- An opening finds a number and gets to the agent called, if the table has room. -/
theorem openDialogue_ok (now : Millis) (called : Address) (hh : s.engine.home = .ofKey key)
    (hk : key ≠ "") (hp : called.key ≠ "") (hroom : ¬ s.engine.table.isFull)
    (hround : s.engine.table.size < Allocator.round)
    (hs : State.idle.next? (.send body.step) = some st') (hown : s.link.Keeps key own)
    (hbox : s.link.Keeps called.key events) (hqueue : events.length < s.link.capacity) :
    ∃ id alloc ev, s.engine.table.get? id = none ∧ Letter.Arrives ⟨1, 0, body⟩ key id ev ∧
      s.openDialogue (Exchange.connection key) now called body = (.ok id,
        ⟨(s.engine.allocating alloc).put ((Dialogue.new id called .initiator now).sent now st'),
          s.link.setMailbox called.key { events := events ++ [ev] }⟩) := by
  obtain ⟨id, alloc, hn, hopen⟩ := Table.openOutbound_ok called now hroom hround
  have hhome : s.engine.home.key = key := congrArg Address.key hh
  have hroute : ((Dialogue.new id called .initiator now).stamp s.engine.home).route.Leads
      .outbound key called.key := by
    have hreplies : (Dialogue.new id called .initiator now).RepliesHome s.engine.home :=
      ⟨hp, by rintro r ⟨⟩⟩
    have hleads := Dialogue.leads_sendRoute (hhome.symm ▸ hk) hreplies
    rwa [hhome] at hleads
  have hsent := transmit_ok (m := Engine.outgoing id
      ((Dialogue.new id called .initiator now).stamp s.engine.home) body)
    (s := ⟨(s.engine.allocating alloc).put ((Dialogue.new id called .initiator now).sent now st'), s.link⟩)
    hroute hown hbox hqueue
  refine ⟨id, alloc, .agent ((Engine.outgoing id
    ((Dialogue.new id called .initiator now).stamp s.engine.home) body).delivered (.ofKey key)), hn,
    ⟨_, rfl, Outgoing.key_originFor .., rfl, rfl, rfl, rfl⟩, ?_⟩
  rw [openDialogue, Engine.opening_ok hopen hs]
  simp only [hsent]
  rfl

/-- A dialogue that is accepted can be completed. -/
theorem complete_ok (now : Millis) (hd : s.engine.table.get? id = some d)
    (h : d.Stands s.engine.home peer id .accepted a) :
    ∃ d', d'.Stands s.engine.home peer id (.closed .completed) a ∧
      d'.counterparty = d.counterparty ∧
      done (s.apply now id .complete) = (.ok (), ⟨s.engine.put d', s.link⟩) := by
  have ha : d.apply .complete now = .ok ({ d with state := .closed .completed }.touch now) := by
    refine Dialogue.apply_eq_ok_iff.2 ⟨.closed .completed, by rw [h.state]; rfl, ?_⟩
    rw [Dialogue.isClosed, h.state]
    rfl
  refine ⟨{ d with state := .closed .completed }.touch now,
    ⟨h.id, h.peer, rfl, h.last, h.replies⟩, rfl, ?_⟩
  have he : s.engine.apply id .complete now = .ok (_, _) :=
    Engine.apply_eq_ok_iff.2 ⟨d, _, hd, ha, rfl, rfl⟩
  rw [apply, he]
  rfl

end Linked

end Negotiation
