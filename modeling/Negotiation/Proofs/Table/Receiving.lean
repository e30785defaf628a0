import Negotiation.Proofs.Table.Runs

/-!
What a table says to a message. The checks stand in a fixed order, and each refuses exactly what it is
for among the messages that the earlier ones let pass: for a number that is held the counterparty, the
sequence and the state, for any other the step, the room and the sequence. A message that is refused
leaves no trace, also none of the dialogue that it would have begun; one that is taken changes its own
dialogue only.
-/

namespace Negotiation

namespace Dialogue

/-- The message answers the last step and has a higher number than it. -/
def Follows (d : Dialogue) (m : Message) : Prop := m.target = d.lastAnswer ∧ d.lastAnswer < m.answer

theorem follows_new {id : DialogueId} {counterparty : Address} {role : Role} {now : Millis} {m : Message} :
    (new id counterparty role now).Follows m ↔ m.target = 0 ∧ m.answer ≠ 0 := by
  rw [Follows, ← UInt32.pos_iff_ne_zero]
  rfl

/-- What becomes of a dialogue that takes a message. -/
structure Takes (d : Dialogue) (m : Message) (route : Route) (now : Millis) (d' : Dialogue) : Prop where
  id : d'.id = d.id
  counterparty : d'.counterparty = d.counterparty
  role : d'.role = d.role
  createdAt : d'.createdAt = d.createdAt
  state : d.state.next? (.receive m.body.step) = some d'.state
  lastAnswer : d'.lastAnswer = m.answer
  lastTarget : d'.lastTarget = m.target
  updatedAt : d'.updatedAt = now
  closedAt : d'.closedAt = if d'.state.isClosed ∧ d.closedAt = none then some now else d.closedAt
  replyRoute : d'.replyRoute = some route

theorem takes_received (d : Dialogue) (m : Message) (route : Route) (now : Millis) {s : State}
    (h : d.state.next? (.receive m.body.step) = some s) :
    d.Takes m route now (d.received m route now s) :=
  ⟨rfl, rfl, rfl, rfl, h, rfl, rfl, rfl, rfl, rfl⟩

/-- The three checks in their order, and what passes them. -/
theorem receive_cases (d : Dialogue) (m : Message) (route : Route) (now : Millis) :
    (m.origin.key ≠ d.counterparty.key ∧
      d.receive m route now = .error (.counterpartyMismatch d.id d.counterparty m.origin)) ∨
    (m.origin.key = d.counterparty.key ∧ ¬ d.Follows m ∧
      d.receive m route now = .error (.outOfSequence d.id m.answer m.target d.lastAnswer)) ∨
    (m.origin.key = d.counterparty.key ∧ d.Follows m ∧
      d.state.next? (.receive m.body.step) = none ∧
      d.receive m route now = .error (.illegalTransition d.id d.state (.receive m.body.step))) ∨
    (m.origin.key = d.counterparty.key ∧ d.Follows m ∧
      ∃ d', d.Takes m route now d' ∧ d.receive m route now = .ok d') := by
  have hsame : m.origin.sameAgent d.counterparty ↔ m.origin.key = d.counterparty.key := by
    rw [Address.sameAgent, decide_eq_true_iff]
  rw [receive_eq]
  by_cases ho : m.origin.key = d.counterparty.key
  · rw [if_neg (not_not.2 (hsame.2 ho))]
    by_cases he : d.Expects m
    · rw [if_neg (not_not.2 he), after]
      cases hs : d.state.next? (.receive m.body.step) with
      | none => exact .inr (.inr (.inl ⟨ho, he.2, rfl, rfl⟩))
      | some s => exact .inr (.inr (.inr ⟨ho, he.2, _, d.takes_received m route now hs, rfl⟩))
    · exact .inr (.inl ⟨ho, fun hf => he ⟨hsame.2 ho, hf⟩, if_pos he⟩)
  · exact .inl ⟨ho, if_pos fun h => ho (hsame.1 h)⟩

end Dialogue

namespace Table

/-- The verdict on a message for a dialogue that is held. -/
structure AnswersHeld (t : Table) (d : Dialogue) (m : Message) (route : Route) (now : Millis) :
    Prop where
  mismatch : t.receive m route now = .error (.counterpartyMismatch m.dialogue d.counterparty m.origin) ↔
    m.origin.key ≠ d.counterparty.key
  sequence : t.receive m route now =
      .error (.outOfSequence m.dialogue m.answer m.target d.lastAnswer) ↔
    m.origin.key = d.counterparty.key ∧ (m.target ≠ d.lastAnswer ∨ m.answer ≤ d.lastAnswer)
  illegal : t.receive m route now =
      .error (.illegalTransition m.dialogue d.state (.receive m.body.step)) ↔
    m.origin.key = d.counterparty.key ∧ m.target = d.lastAnswer ∧ d.lastAnswer < m.answer ∧
      d.state.next? (.receive m.body.step) = none
  taken : (∃ r, t.receive m route now = .ok r) ↔
    m.origin.key = d.counterparty.key ∧ m.target = d.lastAnswer ∧ d.lastAnswer < m.answer ∧
      (d.state.next? (.receive m.body.step)).isSome
  effect : ∀ d' t', t.receive m route now = .ok (d', t') → d.Takes m route now d'

/-- The verdict on a message for a number that is not held. -/
structure AnswersUnheld (t : Table) (m : Message) (route : Route) (now : Millis) : Prop where
  unknown : t.receive m route now = .error (.unknownDialogue m.dialogue) ↔
    ¬ (m.body.step = .cfp ∨ m.body.step = .message)
  full : t.receive m route now = .error (.tableFull t.limits.maxDialogues) ↔
    (m.body.step = .cfp ∨ m.body.step = .message) ∧ t.limits.capacity ≤ t.size
  sequence : t.receive m route now = .error (.outOfSequence m.dialogue m.answer m.target 0) ↔
    (m.body.step = .cfp ∨ m.body.step = .message) ∧ t.size < t.limits.capacity ∧
      (m.target ≠ 0 ∨ m.answer = 0)
  taken : (∃ r, t.receive m route now = .ok r) ↔
    (m.body.step = .cfp ∨ m.body.step = .message) ∧ t.size < t.limits.capacity ∧ m.target = 0 ∧
      m.answer ≠ 0
  effect : ∀ d' t', t.receive m route now = .ok (d', t') →
    (Dialogue.new m.dialogue m.origin .responder now).Takes m route now d'

variable {t : Table} {d : Dialogue} {m : Message} {route : Route} {now : Millis}

theorem receive_held (hd : t.get? m.dialogue = some d) (route : Route) (now : Millis) :
    t.receive m route now = (d.receive m route now).map fun d' => (d', t.put d') := by
  simp only [receive, hd]
  cases d.receive m route now <;> rfl

theorem answersHeld (hk : t.Keyed) (hd : t.get? m.dialogue = some d) (route : Route) (now : Millis) :
    t.AnswersHeld d m route now := by
  have hid : m.dialogue = d.id := (hk _ _ hd).symm
  have hfollows : (m.target ≠ d.lastAnswer ∨ m.answer ≤ d.lastAnswer) ↔ ¬ d.Follows m := by
    rw [Dialogue.Follows, ← UInt32.not_le]
    tauto
  have hlegal : ∀ p, (m.target = d.lastAnswer ∧ d.lastAnswer < m.answer ∧ p) ↔ d.Follows m ∧ p :=
    fun p => and_assoc.symm
  have hr := receive_held hd route now
  rcases d.receive_cases m route now with ⟨ho, h⟩ | ⟨ho, hf, h⟩ | ⟨ho, hf, hs, h⟩ | ⟨ho, hf, d', ht, h⟩ <;>
    rw [h] at hr
  · constructor <;> simp [hr, hid, ho, hfollows, hlegal, Except.map]
  · constructor <;> simp [hr, hid, ho, hf, hfollows, hlegal, Except.map]
  · constructor <;> simp [hr, hid, ho, hs, hf.1, hf.2, UInt32.not_le.2 hf.2, Except.map]
  · constructor <;> simp [hr, hid, ho, ht.state, hf.1, hf.2, UInt32.not_le.2 hf.2, ht, Except.map]

theorem opens_iff {s : Step} : s.opens ↔ s = .cfp ∨ s = .message := by
  cases s <;> simp [Step.opens]

/-- A message that can open a dialogue, for a number that is not held and with room for it. -/
theorem receive_unheld (hd : t.get? m.dialogue = none) (ho : m.body.step.opens) (hroom : ¬ t.isFull)
    (route : Route) (now : Millis) : t.receive m route now =
      ((Dialogue.new m.dialogue m.origin .responder now).receive m route now).map
        fun d' => (d', t.put d') := by
  simp only [receive, hd, ho, hroom, not_true_eq_false, if_false, Bool.false_eq_true]
  cases (Dialogue.new m.dialogue m.origin .responder now).receive m route now <;> rfl

theorem answersUnheld (hd : t.get? m.dialogue = none) (route : Route) (now : Millis) :
    t.AnswersUnheld m route now := by
  by_cases ho : m.body.step.opens
  · by_cases hf : t.isFull
    · have hr : t.receive m route now = .error (.tableFull t.limits.maxDialogues) := by
        simp only [receive, hd, ho, hf, not_true_eq_false, if_false, if_true, full]
      have hf : t.limits.capacity ≤ t.size := of_decide_eq_true hf
      constructor <;> simp [hr, opens_iff.1 ho, hf, Nat.not_lt.2 hf]
    · have hr := receive_unheld hd ho hf route now
      have hf : t.size < t.limits.capacity := by
        rw [isFull, decide_eq_true_iff, Nat.not_le] at hf
        exact hf
      rcases (Dialogue.new m.dialogue m.origin .responder now).receive_cases m route now with
        ⟨hm, h⟩ | ⟨-, hs, h⟩ | ⟨-, -, hn, h⟩ | ⟨-, hs, d', ht, h⟩ <;> rw [h] at hr
      · exact absurd rfl hm
      · have hs : ¬ (m.target = 0 ∧ m.answer ≠ 0) := mt Dialogue.follows_new.2 hs
        have hs' : m.target ≠ 0 ∨ m.answer = 0 := by rwa [not_and_or, not_not] at hs
        constructor <;> simp [hr, opens_iff.1 ho, hf, Nat.not_le.2 hf, hs, hs', Except.map, Dialogue.new]
      · -- a step that can open is legal in a new dialogue
        rcases opens_iff.1 ho with h | h <;> rw [h] at hn <;> cases hn
      · rw [Dialogue.follows_new] at hs
        constructor <;> simp [hr, opens_iff.1 ho, hf, Nat.not_le.2 hf, hs.1, hs.2, ht, Except.map]
  · have hr : t.receive m route now = .error (.unknownDialogue m.dialogue) := by
      simp only [receive, hd, ho, Bool.false_eq_true, not_false_eq_true, if_true]
    constructor <;> simp [hr, mt opens_iff.2 ho]

/-- A message that is taken puts one dialogue in place, under its own number. -/
theorem receive_table {d' : Dialogue} {t' : Table} (hk : t.Keyed)
    (h : t.receive m route now = .ok (d', t')) : t' = t.put d' ∧ d'.id = m.dialogue := by
  obtain ⟨hd, he⟩ := receive_eq_ok_iff.1 h
  refine ⟨he, ?_⟩
  rcases hd with ⟨d, hd, hr⟩ | ⟨-, -, -, hr⟩
  · exact ((answersHeld hk hd _ _).effect d' t' h).id.trans (hk _ _ hd)
  · obtain ⟨-, s, -, rfl⟩ := Dialogue.receive_eq_ok_iff.1 hr
    rfl

/-- RECEIVING: in every table that comes about by its operations, a message for a number that is held
    is refused for its counterparty, its sequence or its step, in this order, and taken otherwise; one
    for another number is refused for its step, for want of room or for its sequence, and else begins
    a dialogue with its sender. A message that is refused leaves the table as it is. One that is taken
    leaves the dialogue that is given back in its place, and the others as they are. -/
theorem receive_exact (ht : t.Reachable) (m : Message) (route : Route) (now : Millis) :
    (∀ d, t.get? m.dialogue = some d → t.AnswersHeld d m route now) ∧
    (t.get? m.dialogue = none → t.AnswersUnheld m route now) ∧
    (∀ f, t.receive m route now = .error f → t.call (.receive m route now) = t) ∧
    ∀ d' t', t.receive m route now = .ok (d', t') →
      t.call (.receive m route now) = t' ∧ t'.get? m.dialogue = some d' ∧
      (∀ id, id ≠ m.dialogue → t'.get? id = t.get? id) ∧
      t'.limits = t.limits ∧ t'.allocator = t.allocator := by
  refine ⟨fun d hd => answersHeld ht.keyed hd _ _, fun hd => answersUnheld hd _ _, ?_, ?_⟩
  · intro f hf
    rw [call, hf, behind]
  · intro d' t' h
    obtain ⟨rfl, hid⟩ := receive_table ht.keyed h
    refine ⟨by rw [call, h, behind], by rw [get?_put, if_pos hid], fun id hne => ?_, rfl, rfl⟩
    rw [get?_put, if_neg fun he => hne (he.symm.trans hid)]

/-- A proposal of somebody else for a dialogue that is held is refused, and the table stays. -/
theorem stranger_refused :
    let call : Message :=
      { answer := 1, dialogue := 7, origin := .ofKey "alice", target := 0, body := .cfp .nothing }
    let other : Message :=
      { answer := 2, dialogue := 7, origin := .ofKey "mallory", target := 1, body := .propose (.content []) }
    let t := (new {} 1).run [.receive call (call.route (.ofKey "bob")) 0]
    let route := other.route (.ofKey "bob")
    t.receive other route 1 = .error (.counterpartyMismatch 7 (.ofKey "alice") (.ofKey "mallory")) ∧
    t.call (.receive other route 1) = t := by
  intro call other t route
  obtain ⟨hheld, -, hsame, -⟩ :=
    receive_exact (t := t) ⟨{}, 1, [.receive call (call.route (.ofKey "bob")) 0], rfl⟩ other route 1
  obtain ⟨d, hd, hpeer⟩ : ∃ d, t.get? 7 = some d ∧ d.counterparty = .ofKey "alice" := ⟨_, rfl, rfl⟩
  have hrefused := (hheld d hd).mismatch.2 (by rw [hpeer]; decide)
  rw [hpeer] at hrefused
  exact ⟨hrefused, hsame _ hrefused⟩

end Table

end Negotiation
