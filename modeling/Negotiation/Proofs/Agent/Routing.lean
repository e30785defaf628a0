import Negotiation.Proofs.Agent.Lasting

/-!
Where messages go. The route that a dialogue replies along names its counterparty as sender and the
agent itself as receiver, whatever the texts were that the route was read from: a text that names
anybody else is replaced, and a message of anybody else is refused. Main statement: every message that
an engine hands over, in any run, goes to the counterparty of its dialogue and comes from the engine's
own agent.
-/

namespace Negotiation

/-- A URI names the agent of a key. -/
def Uri.Names (u : Uri) (key : String) : Prop := ∃ a, u.address? = some a ∧ a.key = key

theorem Uri.names_of_agentKey {u : Uri} {key : String} (he : u.empty = false) (hk : u.agentKey = key)
    (h : key ≠ "") : u.Names key := by
  refine ⟨{ key := u.agentKey, label := Address.labelOf u.label }, ?_, hk⟩
  rw [address?, if_neg]
  rintro (h' | h')
  · rw [he] at h'
    cases h'
  · exact h (hk.symm.trans h')

theorem Uri.names_ofAddress {a : Address} (h : a.key ≠ "") : (ofAddress a).Names a.key :=
  names_of_agentKey rfl rfl h

/-- What a text names does not matter: the agent expected is named. -/
theorem Uri.names_namingOr (u : Uri) {a : Address} (h : a.key ≠ "") : (u.namingOr a).Names a.key := by
  rw [namingOr]
  cases hu : u.address? with
  | none => exact names_ofAddress h
  | some b =>
    simp only
    split
    · next hs => exact ⟨b, hu, of_decide_eq_true hs⟩
    · exact names_ofAddress h

namespace Route

/-- A route of a direction that leads from the agent of one key to that of another. -/
structure Leads (r : Route) (dir : Direction) (source target : String) : Prop where
  direction : r.direction = dir
  source : r.source.Names source
  target : r.target.Names target

theorem leads_received {origin home : Address} (ho : origin.key ≠ "") (hh : home.key ≠ "")
    (sourceText targetText : String) :
    (received origin home sourceText targetText).Leads .inbound origin.key home.key :=
  ⟨rfl, Uri.names_namingOr _ ho, Uri.names_namingOr _ hh⟩

theorem leads_towards {home peer : Address} (hh : home.key ≠ "") (hp : peer.key ≠ "")
    (direct : Bool) : (towards home peer direct).Leads .outbound home.key peer.key := by
  refine ⟨rfl, ?_, Uri.names_ofAddress hp⟩
  rw [towards]
  cases direct with
  | true => exact Uri.names_of_agentKey rfl rfl hh
  | false => exact Uri.names_ofAddress hh

theorem Leads.swap {r : Route} {dir : Direction} {source target : String}
    (h : r.Leads dir source target) : r.swap.Leads dir.reversed target source :=
  ⟨congrArg Direction.reversed h.direction, h.target, h.source⟩

end Route

/-- A dialogue that replies to its counterparty. -/
def Dialogue.RepliesHome (home : Address) (d : Dialogue) : Prop :=
  d.counterparty.key ≠ "" ∧
  ∀ r, d.replyRoute = some r → r.Leads .inbound d.counterparty.key home.key

theorem Dialogue.leads_sendRoute {d : Dialogue} {home : Address} (hh : home.key ≠ "")
    (h : d.RepliesHome home) : (d.sendRoute home).Leads .outbound home.key d.counterparty.key := by
  rw [sendRoute]
  cases hr : d.replyRoute with
  | none => exact Route.leads_towards hh h.1 true
  | some r => exact (h.2 r hr).swap

theorem lasting_repliesHome {home : Address} (hh : home.key ≠ "") :
    Lasting home (fun a => a.key ≠ "") (Dialogue.RepliesHome home) where
  opened hp _ := ⟨hp, by rintro r ⟨⟩⟩
  called hp _ _ := ⟨hp, by rintro r ⟨⟩; exact Route.leads_received hp hh _ _⟩
  sent h _ := h
  received {d m now s} h hx _ := by
    have ho : m.origin.key = d.counterparty.key := of_decide_eq_true hx.1
    refine ⟨h.1, ?_⟩
    rintro r ⟨⟩
    exact ho ▸ Route.leads_received (ho.symm ▸ h.1) hh _ _
  applied h _ ha := by
    obtain ⟨s, -, rfl⟩ := Dialogue.apply_eq_ok_iff.1 ha
    split <;> exact h

/-- A message on its way out, and the dialogue that it belongs to. -/
theorem Engine.leads_of_handover {e e' : Engine} {now : Millis} {deed : Deed} {m : Outgoing}
    (hh : e.home.key ≠ "") (he : e.Holds (Dialogue.RepliesHome e.home))
    (hd : deed.Proper (fun a => a.key ≠ "")) (h : e.handover? now deed = some (m, e')) :
    ∃ d, e'.table.get? m.dialogue = some d ∧ m.route.Leads .outbound e.home.key d.counterparty.key := by
  cases deed with
  | opening peer body =>
    rw [handover?] at h
    rcases e.opening_cases now peer body with ⟨f, a, ho⟩ | ⟨id, a, s, hn, hs, ho⟩ <;> rw [ho] at h
    · cases h
    · cases h
      refine ⟨_, by rw [get?_put]; exact if_pos rfl, ?_⟩
      exact Dialogue.leads_sendRoute (d := .new id peer .initiator now) hh ⟨hd, by rintro r ⟨⟩⟩
  | answer id body =>
    rw [handover?] at h
    cases ha : e.answering now id body with
    | error f => rw [ha] at h; cases h
    | ok r =>
      rw [ha] at h
      obtain rfl := Option.some.inj h
      obtain ⟨d, s, hg, hs, rfl, rfl⟩ := answering_eq_ok_iff.1 ha
      obtain ⟨hid, hd⟩ := he id d hg
      refine ⟨_, by rw [get?_put]; exact if_pos hid, ?_⟩
      exact Dialogue.leads_sendRoute hh hd
  | event id t => cases h

/-- ROUTING: in every run of an engine, each message handed over goes to the counterparty of its
    dialogue, as the engine holds it then, and comes from the engine's agent; and these are the
    messages that the transport sees. -/
theorem handed_to_counterparty {β σ : Type} (T : Transport β) (h : Handler σ) (bound : Nat)
    {home : Address} {limits : Limits} {start : UInt32} {e : Engine}
    (he : Engine.new home limits start = .ok e) (hh : home.key ≠ "") (link : β) (m : σ)
    (cs : List (Millis × Linked.Call))
    (horigin : ∀ now msg, (now, .take (.agent msg)) ∈ cs → msg.origin.key ≠ "")
    (hpeer : ∀ now s peer body,
      (now, s, .opening peer body) ∈ Linked.deeds T.watched h bound ⟨e, [], link⟩ m cs → peer.key ≠ "") :
    let handed := Linked.handed T.watched h bound ⟨e, [], link⟩ m cs
    (∀ out ∈ handed, ∃ d, out.2.table.get? out.1.dialogue = some d ∧
      out.1.route.direction = .outbound ∧
      (∃ a, out.1.destination? = some a ∧ a.key = d.counterparty.key) ∧
      ∃ a, out.1.route.origin? = some a ∧ a.key = home.key) ∧
    ∀ s' m', Linked.calls T.watched h bound ⟨e, [], link⟩ m cs = some (s', m') →
      s'.link.1 = handed.map (·.1) := by
  intro handed
  obtain ⟨rfl, hnew⟩ := Engine.holds_new (P := Dialogue.RepliesHome home) he
  refine ⟨fun out hout => ?_, fun s' m' hr => Linked.seen_calls hr⟩
  obtain ⟨⟨now, s, deed⟩, hp, hm⟩ := List.mem_flatMap.1 hout
  have hproper : ∀ p ∈ Linked.deeds T.watched h bound ⟨e, [], link⟩ m cs,
      p.2.2.Proper fun a => a.key ≠ "" := by
    rintro ⟨now, s, deed⟩ hp
    cases deed with
    | opening peer body => exact hpeer now s peer body hp
    | answer id body => trivial
    | event id t => rcases Linked.eq_of_event_mem_deeds hp with rfl | rfl <;> simp [Deed.Proper]
  have hknown : ∀ now ev, (now, .take ev) ∈ cs → ev.From fun a => a.key ≠ "" := by
    rintro now ev hev msg rfl
    exact horigin now msg hev
  obtain ⟨hhome, hholds⟩ :=
    (Linked.holds_of_run (lasting_repliesHome hh) hnew hknown hproper).1 _ hp
  have hover : s.engine.handover? now deed = some (out.1, out.2) := Option.mem_toList.1 hm
  obtain ⟨d, hd, hleads⟩ := Engine.leads_of_handover (hhome ▸ hh)
    (hhome.symm ▸ hholds) (hproper _ hp) hover
  exact ⟨d, hd, hleads.direction, hleads.target, hhome ▸ hleads.source⟩

/-- A call for proposals whose source text names somebody else is answered to its sender all the
    same. -/
theorem answered_despite_foreign_uri :
    let e : Engine := { home := .ofKey "bob", table := .new {} 1 }
    let call : Message :=
      { answer := 1, dialogue := 7, origin := .ofKey "alice", target := 0, body := .cfp .nothing
        sourceUri := "tcp://core:1/ck/ns/mallory/svc" }
    let idle : Handler Unit := ⟨fun _ _ => ([], ())⟩
    let cs : List (Millis × Linked.Call) :=
      [(1, .take (.agent call)), (2, .act (.propose 7 (.content [])))]
    let handed := Linked.handed Transport.recorder.watched idle 0 ⟨e, [], {}⟩ () cs
    handed.length = 1 ∧ ∀ out ∈ handed, ∃ d, out.2.table.get? out.1.dialogue = some d ∧
      ∃ a, out.1.destination? = some a ∧ a.key = d.counterparty.key := by
  intro e call idle cs handed
  have hcalls : ∀ now msg, (now, .take (.agent msg)) ∈ cs → msg.origin.key ≠ "" := by
    intro now msg h
    simp only [cs, List.mem_cons, Prod.mk.injEq, Linked.Call.take.injEq, Event.agent.injEq,
      reduceCtorEq, and_false, List.not_mem_nil, or_false] at h
    rw [h.2]
    decide
  have hpeer : ∀ now s peer body, (now, s, .opening peer body) ∈
      Linked.deeds Transport.recorder.watched idle 0 ⟨e, [], {}⟩ () cs → peer.key ≠ "" := by
    intro now s peer body h
    rcases List.mem_singleton.1 h with ⟨⟩
  have hnew : Engine.new (.ofKey "bob") {} 1 = .ok e := rfl
  obtain ⟨hall, -⟩ :=
    handed_to_counterparty Transport.recorder idle 0 hnew (by decide) {} () cs hcalls hpeer
  refine ⟨by decide, fun out hout => ?_⟩
  obtain ⟨d, hd, -, hto, -⟩ := hall out hout
  exact ⟨d, hd, hto⟩

end Negotiation
