import Negotiation.Proofs.Agent.Lasting
import Negotiation.Proofs.Table.Opening

/-!
Opening a dialogue. Without room or a free number nothing happens. Otherwise the new dialogue has taken its
first step when its message is handed over, and if the transport refuses the message, the dialogue is
removed again; so an opening leaves one new dialogue or none. Only the allocator, which has passed a number,
remembers an opening that failed. Main statement: `opened_or_as_before`.
-/

namespace Negotiation

/-- With a step that can open, a dialogue that has not begun begins. -/
theorem State.next?_of_opens {step : Step} (h : step.opens) :
    State.idle.next? (.send step) = some (if step = .cfp then .cfpSent else .messaging) := by
  cases step with
  | cfp | message => rfl
  | propose | accept | decline => cases h

/-- The first step of a dialogue that was just opened is legal. -/
theorem Table.send_of_openOutbound {t t' : Table} {id : DialogueId} {peer : Address} {now : Millis}
    {step : Step} {st : State} (h : t.openOutbound peer now = (.ok id, t'))
    (hs : State.idle.next? (.send step) = some st) (home : Address) :
    ∃ stamp t'', t'.send id step home now = .ok (stamp, t'') := by
  rcases t.openOutbound_cases peer now with ⟨a, he⟩ | ⟨id', a, -, he⟩ <;> rw [he] at h
  · cases h
  · cases h
    have hnew : ({ t with allocator := a }.put (.new id peer .initiator now)).get? id =
        some (.new id peer .initiator now) := by
      rw [get?_put]
      exact if_pos rfl
    exact ⟨_, _, send_eq_ok_iff.2 ⟨_, _, hnew, Dialogue.send_eq_ok_iff.2 ⟨st, hs, rfl, rfl⟩, rfl⟩⟩

namespace Linked

variable {β : Type} {now : Millis} {s : Linked β} {peer : Address} {body : Body} {st : State}

theorem transmit_of_submit {T : Transport β} {m : Outgoing} {answer : Except TransportError Unit} {link : β}
    (h : T.submit s.link (.send m) = (answer, link)) :
    s.transmit T m = (answer.mapError .transport, { s with link }) := by
  simp [transmit, h]

/-- There is room for a dialogue, and a number for it. -/
def Roomy (s : Linked β) : Prop :=
  ¬ s.engine.table.isFull ∧ ∃ id, id ≠ 0 ∧ s.engine.table.get? id = none

/-- Without room the transport hears nothing. -/
theorem openDialogue_of_not_roomy (T : Transport β) (h : ¬ s.Roomy) (now : Millis) (peer : Address)
    (body : Body) : ∃ a, s.openDialogue T now peer body =
      (.error s.engine.table.full, ⟨s.engine.allocating a, s.link⟩) := by
  obtain ⟨a, ho⟩ := Table.openOutbound_of_not_free h peer now
  refine ⟨a, ?_⟩
  rw [openDialogue, Engine.opening, ho]
  rfl

/-- With room one message is handed over, and it is for the transport to say whether the dialogue stays. -/
theorem openDialogue_of_roomy (T : Transport β) (h : s.Roomy)
    (hs : State.idle.next? (.send body.step) = some st) (now : Millis) (peer : Address) :
    ∃ id a m answer link, s.engine.table.get? id = none ∧
      m = Engine.outgoing id ((Dialogue.new id peer .initiator now).stamp s.engine.home) body ∧
      T.submit s.link (.send m) = (answer, link) ∧ s.openDialogue T now peer body =
        match answer with
        | .ok () =>
          (.ok id, ⟨(s.engine.allocating a).put ((Dialogue.new id peer .initiator now).sent now st), link⟩)
        | .error e => (.error (.transport e), ⟨s.engine.allocating a, link⟩) := by
  obtain ⟨hroom, id₀, hid, hfree⟩ := h
  obtain ⟨k, -, hk, ho⟩ := Table.openOutbound_of_free hroom hid hfree peer now
  have hn := (Table.contains_eq_false_iff _ _).1 hk.free
  generalize Allocator.circle s.engine.table.allocator.next k = id at hn ho
  rcases hanswer : T.submit s.link (.send (Engine.outgoing id
    ((Dialogue.new id peer .initiator now).stamp s.engine.home) body)) with ⟨answer, link⟩
  refine ⟨id, ⟨id + 1⟩, _, answer, link, hn, rfl, hanswer, ?_⟩
  have hsent : ∀ engine, transmit T ⟨engine, s.link⟩ (Engine.outgoing id
      ((Dialogue.new id peer .initiator now).stamp s.engine.home) body) =
        (answer.mapError .transport, ⟨engine, link⟩) := fun _ => transmit_of_submit hanswer
  rw [openDialogue, Engine.opening_ok ho hs]
  simp only [hsent]
  cases answer with
  | ok => rfl
  | error e =>
    -- the dialogue is taken back
    have hremoved : ((s.engine.allocating ⟨id + 1⟩).put
        ((Dialogue.new id peer .initiator now).sent now st)).table.remove id =
          (s.engine.allocating ⟨id + 1⟩).table :=
      Table.remove_put { s.engine.table with allocator := ⟨id + 1⟩ }
        (d := (Dialogue.new id peer .initiator now).sent now st) hn
    simp only [Except.mapError, withTable, Engine.outgoing, hremoved]
    rfl

end Linked

/-- ALL OR NOTHING: whatever an engine holds, wherever its allocator stands and whatever the transport
    answers, opening a dialogue by a call for proposals or a message fails for want of room, and then nothing
    is handed over, or because the transport refuses the one message that is; either way the dialogues are
    as before. Or it succeeds with a number that was not held: then the transport has taken exactly one
    message, with this number, which is the first of its dialogue and says what it should, and the dialogues
    have changed by one new dialogue under the number, with the agent called, that has taken its first step
    and heard nothing yet. A message is handed over exactly when there is room and a number is free; the
    first step of a dialogue that was just opened is never illegal. -/
theorem opened_or_as_before {β : Type} (T : Transport β) (now : Millis) (s : Linked (List Outgoing × β))
    (peer : Address) {body : Body} (hb : body.step.opens) :
    let r := s.openDialogue T.watched now peer body
    let held := s.engine.table.dialogues
    (∀ f, r.1 = .error f → r.2.engine.table.dialogues = held ∧
      ((f = .tableFull s.engine.limits.maxDialogues ∧ r.2.link = s.link) ∨
        ∃ m e, f = .transport e ∧ r.2.link.1 = s.link.1 ++ [m] ∧
          (T.submit s.link.2 (.send m)).1 = .error e)) ∧
    (∀ id, r.1 = .ok id → held.get? id = none ∧
      (∃ m, r.2.link.1 = s.link.1 ++ [m] ∧ (T.submit s.link.2 (.send m)).1 = .ok () ∧
        m.dialogue = id ∧ m.answer = 1 ∧ m.target = 0 ∧ m.body = body) ∧
      ∃ d, r.2.engine.table.dialogues = held.insert id d ∧ d.id = id ∧ d.counterparty = peer ∧
        d.role = .initiator ∧ d.state = (if body.step = .cfp then .cfpSent else .messaging) ∧
        d.lastAnswer = 1 ∧ d.replyRoute = none) ∧
    ((∃ m, r.2.link.1 = s.link.1 ++ [m]) ↔
      held.size < s.engine.limits.capacity ∧ ∃ id, id ≠ 0 ∧ held.get? id = none) ∧
    ∀ id table, s.engine.table.openOutbound peer now = (.ok id, table) →
      ∃ stamp table', table.send id body.step s.engine.home now = .ok (stamp, table') := by
  intro r held
  have hs := State.next?_of_opens hb
  have hroomy : s.Roomy ↔ held.size < s.engine.limits.capacity ∧ ∃ id, id ≠ 0 ∧ held.get? id = none :=
    and_congr_left fun _ => s.engine.table.not_isFull_iff
  have hfirst : ∀ id table, s.engine.table.openOutbound peer now = (.ok id, table) →
      ∃ stamp table', table.send id body.step s.engine.home now = .ok (stamp, table') :=
    fun _ _ ho => Table.send_of_openOutbound ho hs _
  by_cases h : s.Roomy
  case neg =>
    obtain ⟨a, hr⟩ := Linked.openDialogue_of_not_roomy T.watched h now peer body
    have hr : r = _ := hr
    rw [hr]
    refine ⟨?_, by rintro id ⟨⟩, iff_of_false ?_ (mt hroomy.2 h), hfirst⟩
    · rintro f ⟨⟩
      exact ⟨rfl, .inl ⟨rfl, rfl⟩⟩
    · rintro ⟨m, hm⟩
      exact List.cons_ne_nil m [] (List.self_eq_append_right.1 hm)
  obtain ⟨id, a, m, answer, link, hn, hm, hanswer, hr⟩ :=
    Linked.openDialogue_of_roomy T.watched h hs now peer
  have hr : r = _ := hr
  have hseen : link.1 = s.link.1 ++ [m] := (congrArg (·.2.1) hanswer).symm
  have hverdict : (T.submit s.link.2 (.send m)).1 = answer := congrArg (·.1) hanswer
  rw [hr]
  cases answer with
  | ok =>
    refine ⟨by rintro f ⟨⟩, ?_, iff_of_true ⟨m, hseen⟩ (hroomy.1 h), hfirst⟩
    rintro id ⟨⟩
    exact ⟨hn, ⟨m, hseen, hverdict, by rw [hm]; rfl, by rw [hm]; rfl, by rw [hm]; rfl, by rw [hm]; rfl⟩,
      (Dialogue.new id peer .initiator now).sent now _, rfl, rfl, rfl, rfl, rfl, rfl, rfl⟩
  | error e =>
    refine ⟨?_, by rintro id ⟨⟩, iff_of_true ⟨m, hseen⟩ (hroomy.1 h), hfirst⟩
    rintro f ⟨⟩
    exact ⟨rfl, .inr ⟨m, e, rfl, hseen, hverdict⟩⟩

/-- A greeting from Bob holds the number 1. Alice's first call of Carol is refused by the transport and
leaves only that dialogue; her second, a greeting, gets out under the number that comes next. -/
theorem opened_at_second_try :
    let greeting : Message :=
      { answer := 1, dialogue := 1, origin := .ofKey "bob", target := 0, body := .message [104] }
    let e : Engine := { home := .ofKey "alice", table := .new {} 1 }
    let s : Linked (List Outgoing × Recording) :=
      ⟨(e.observe 0 (.agent greeting)).2.1, [], { fault := some ⟨.disconnected, 0, some 1⟩ }⟩
    let T := Transport.recorder.watched
    s.engine.table.size = 1 ∧
    ∃ s₁ s₂ d, s.openDialogue T 1 (.ofKey "carol") (.cfp .nothing) = (.error (.transport .disconnected), s₁) ∧
      s₁.engine.table.dialogues = s.engine.table.dialogues ∧
      s₁.openDialogue T 2 (.ofKey "carol") (.message [104]) = (.ok 3, s₂) ∧
      s₂.engine.table.dialogues = s.engine.table.dialogues.insert 3 d ∧ d.state = .messaging ∧
      d.lastAnswer = 1 := by
  intro greeting e s T
  have hfirst : (s.openDialogue T 1 (.ofKey "carol") (.cfp .nothing)).1 =
      .error (.transport .disconnected) := by decide +kernel
  have hsecond : ((s.openDialogue T 1 (.ofKey "carol") (.cfp .nothing)).2.openDialogue T 2
      (.ofKey "carol") (.message [104])).1 = .ok 3 := by decide +kernel
  have hone := @opened_or_as_before _ Transport.recorder 1 s (.ofKey "carol") (.cfp .nothing) rfl
  rcases h₁ : s.openDialogue T 1 (.ofKey "carol") (.cfp .nothing) with ⟨r₁, s₁⟩
  rw [h₁] at hfirst hsecond hone
  obtain rfl : r₁ = .error (.transport .disconnected) := hfirst
  have htwo := @opened_or_as_before _ Transport.recorder 2 s₁ (.ofKey "carol") (.message [104]) rfl
  rcases h₂ : s₁.openDialogue T 2 (.ofKey "carol") (.message [104]) with ⟨r₂, s₂⟩
  rw [h₂] at hsecond htwo
  obtain rfl : r₂ = .ok 3 := hsecond
  have hheld : s₁.engine.table.dialogues = s.engine.table.dialogues := (hone.1 _ rfl).1
  obtain ⟨-, -, d, hd, -, -, -, hstate, hlast, -⟩ := htwo.2.1 3 rfl
  exact ⟨by decide +kernel, s₁, s₂, d, rfl, hheld, h₂, hheld ▸ hd, hstate, hlast⟩

end Negotiation
