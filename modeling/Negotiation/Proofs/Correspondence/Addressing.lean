import Negotiation.Proofs.Agent.Lanes
import Negotiation.Proofs.Correspondence
import Negotiation.Proofs.Exchange.Arrivals

/-!
Addressing over whole conversations. A message carries its route as two texts; who receives it reads
them, keeps the route that it reads and answers along it. Two engines share a broker with anybody else,
and both, and the others, may do what they like. Main statement (`same_lane`): if all dialogues that
the two open with each other under one number are about one label, then all that they say to each other
under that number goes along the straight route with that label, and is received by the route by which
it was sent.
-/

namespace Negotiation.Correspondence

/-! ### Moves -/

/-- Something that happens to two engines, or around them. -/
inductive Move where
  /-- The owner or the application of an engine acts, or the engine takes an event. -/
  | event (e : Event)
  /-- The owner of an engine drops the first event that waits for it. -/
  | drop (side : Role)
  /-- An engine sweeps its table. -/
  | sweep (side : Role)
  /-- An engine makes a numbered request. -/
  | request (side : Role) (make : RequestId → Request)
  /-- The broker takes a request of somebody. -/
  | serve (key : String) (r : Request)
  /-- Somebody connects. -/
  | connect (key : String)
  /-- Somebody disconnects. -/
  | disconnect (key : String)
  /-- Somebody takes no more events. -/
  | abandon (key : String)

section Definitions

variable (c : Correspondence) (id : DialogueId)

/-- What a move does. -/
def move (now : Millis) : Move → Correspondence
  | .event e => c.step now e
  | .drop r => { c with exchange := (c.exchange.take (c.key r)).2 }
  | .sweep r => c.put r ⟨((c.engine r).sweep now).2, c.exchange⟩
  | .request r make => c.put r ((c.side r).request (Exchange.connection (c.key r)) make).2
  | .serve key r => { c with exchange := (c.exchange.submit key r).2 }
  | .connect key =>
    match c.exchange.connect key with
    | .ok exchange => { c with exchange }
    | .error _ => c
  | .disconnect key => { c with exchange := c.exchange.disconnect key }
  | .abandon key => { c with exchange := c.exchange.abandon key }

/-- What some moves do. -/
def moves (es : List (Millis × Move)) : Correspondence := es.foldl (fun c e => c.move e.1 e.2) c

/-- What the owners of the two engines send, they send by their engines, and apply no step as an event;
and nobody else has the key of one of the two. -/
def Move.Proper (keys : Role → String) : Move → Prop
  | .event (.act _ deed) => deed.Proper fun _ => True
  | .request _ make => ∀ n o, make n ≠ .send o
  | .serve key r => ∀ o, r = .send o → ∀ side, key ≠ keys side
  | _ => True

/-- A side sends a message of a dialogue to the other, and the broker takes it. -/
def Says (now : Millis) (e : Move) (r : Role) (o : Outgoing) : Prop :=
  ∃ deed engine, e = .event (.act r deed) ∧ (c.engine r).handover? now deed = some (o, engine) ∧
    (c.carryOut r now deed).1 = .ok () ∧ o.dialogue = id ∧
      ∃ a, o.destination? = some a ∧ a.key = c.key r.other

/-- A side takes a message of the other, and commits it to a dialogue. -/
def Hears (now : Millis) (e : Move) (r : Role) (m : Message) (d : Dialogue) : Prop :=
  ∃ engine, e = .event (.read r) ∧ (c.exchange.take (c.key r)).1 = some (.agent m) ∧ m.dialogue = id ∧
    m.origin.key = c.key r.other ∧ (c.engine r).receive m now = .ok (d, engine)

/-- A side has sent a message of a dialogue to the other. -/
def Said (es : List (Millis × Move)) (r : Role) (o : Outgoing) : Prop :=
  ∃ pre e, pre ++ [e] <+: es ∧ (c.moves pre).Says id e.1 e.2 r o

/-- All dialogues that the two open with each other under a number are about the label of an address. -/
def OpensAs (peer : Address) (es : List (Millis × Move)) : Prop :=
  ∀ pre now r called body, pre ++ [(now, .event (.act r (.opening called body)))] <+: es →
    (((c.moves pre).side r).openDialogue (Exchange.connection (c.key r)) now called body).1 = .ok id →
    called.key = c.key r.other → called.label.getD "" = peer.label.getD ""

end Definitions

/-- Two new engines, whose keys are plain and different, and a new broker. -/
structure Unwritten (c : Correspondence) : Prop where
  apart : ∀ r, c.key r ≠ c.key r.other
  plain : ∀ r, Address.PlainKey (c.key r)
  engine : ∀ r, ∃ limits start, Engine.new (c.home r) limits start = .ok (c.engine r)
  exchange : ∃ capacity, c.exchange = .new capacity

/-- All that is said in a dialogue goes along the lane of a label; `told` is what each side has sent. -/
structure Addressed (id : DialogueId) (label : String) (told : Role → Outgoing → Prop)
    (c : Correspondence) : Prop where
  /-- Nothing goes to the other side but what belongs to a dialogue with it. -/
  aims : ∀ r, (c.engine r).Holds (Dialogue.Aims (c.home r))
  /-- Both sides answer along the lane. -/
  lanes : ∀ r, (c.engine r).KeepsLane id (c.key r.other) label
  /-- All that was sent went along the lane. -/
  routes : ∀ r o, told r o → o.route = .lane (c.key r) (c.key r.other) label
  /-- What waits for a side was sent by the other. -/
  boxes : ∀ r m, .agent m ∈ c.exchange.waiting (c.key r) → m.dialogue = id → m.origin.key = c.key r.other →
    ∃ o, told r.other o ∧ m = o.delivered (.ofKey (c.key r.other))

/-! ### What one move does -/

section Move

variable {c : Correspondence} {id : DialogueId} {label : String} {now : Millis} {e : Move} {r : Role}
  {told : Role → Outgoing → Prop}

/-- A move leaves an engine alone, or it is one of four things that engines do. -/
theorem engine_move (c : Correspondence) (now : Millis) (e : Move) (r : Role) :
    (c.move now e).engine r = c.engine r ∨
    (∃ deed, e = .event (.act r deed) ∧ (c.move now e).engine r = (c.carryOut r now deed).2.engine) ∨
    (∃ ev, e = .event (.read r) ∧ (c.exchange.take (c.key r)).1 = some ev ∧
      (c.move now e).engine r = ((c.engine r).observe now ev).2.1) ∨
    (c.move now e).engine r = ((c.engine r).sweep now).2 ∨
    ∃ n, (c.move now e).engine r = { c.engine r with nextRequest := n } := by
  have hput : ∀ r' s, (c.put r' s).engine r = c.engine r ∨ r' = r ∧ (c.put r' s).engine r = s.engine := by
    intro r' s
    by_cases hr : r = r'
    · exact .inr ⟨hr.symm, hr ▸ put_engine ..⟩
    · exact .inl (if_neg hr)
  cases e with
  | event e =>
    cases e with
    | act r' deed =>
      rcases hput r' (c.carryOut r' now deed).2 with he | ⟨rfl, he⟩
      · exact .inl he
      · exact .inr (.inl ⟨deed, rfl, he⟩)
    | read r' =>
      rw [move, step]
      rcases ht : c.exchange.take (c.key r') with ⟨_ | ev, x⟩
      · exact .inl rfl
      · rcases hput r' ⟨((c.engine r').observe now ev).2.1, x⟩ with he | ⟨rfl, he⟩
        · exact .inl he
        · exact .inr (.inr (.inl ⟨ev, rfl, congrArg Prod.fst ht, he⟩))
  | sweep r' =>
    rcases hput r' ⟨((c.engine r').sweep now).2, c.exchange⟩ with he | ⟨rfl, he⟩
    · exact .inl he
    · exact .inr (.inr (.inr (.inl he)))
  | request r' make =>
    rcases hput r' ((c.side r').request (Exchange.connection (c.key r')) make).2 with he | ⟨rfl, he⟩
    · exact .inl he
    · exact .inr (.inr (.inr (.inr ⟨(c.engine r').nextRequest + 1, he⟩)))
  | connect key =>
    rw [move]
    split <;> exact .inl rfl
  | drop r' | serve key rq | disconnect key | abandon key => exact .inl rfl

/-- An engine keeps its address. -/
theorem home_move (c : Correspondence) (now : Millis) (e : Move) (r : Role) :
    (c.move now e).home r = c.home r := by
  rw [home]
  rcases c.engine_move now e r with he | ⟨deed, -, he⟩ | ⟨ev, -, -, he⟩ | he | ⟨n, he⟩ <;> rw [he]
  · rfl
  · exact Linked.carryOut_home ..
  · exact Engine.observe_home ..
  · rfl
  · rfl

theorem key_move (c : Correspondence) (now : Millis) (e : Move) : (c.move now e).key = c.key :=
  funext fun r => congrArg Address.key (c.home_move now e r)

theorem key_inj (h : ∀ r, c.key r ≠ c.key r.other) {r' : Role} (hkey : c.key r = c.key r') : r = r' := by
  revert r'
  rw [Role.forall_iff r]
  exact ⟨fun _ => rfl, fun hkey => absurd hkey (h r)⟩

/-- A message that waits behind a move waited before, or a side has sent it, or somebody else. -/
theorem waiting_move (he : e.Proper c.key) {key : String} {m : Message}
    (h : .agent m ∈ (c.move now e).exchange.waiting key) : .agent m ∈ c.exchange.waiting key ∨
    (∃ r deed o engine, e = .event (.act r deed) ∧ (c.engine r).handover? now deed = some (o, engine) ∧
      (c.carryOut r now deed).1 = .ok () ∧ (∃ a, o.destination? = some a ∧ a.key = key) ∧
      m = o.delivered (.ofKey (c.key r))) ∨
    ∀ r, m.origin.key ≠ c.key r := by
  cases e with
  | event e =>
    cases e with
    | act r deed =>
      have h : .agent m ∈
          ((c.side r).carryOut (Exchange.connection (c.key r)) now deed).2.link.waiting key := h
      cases ho : (c.engine r).handover? now deed with
      | none =>
        have hlink := Linked.link_of_handover_none (Exchange.connection (c.key r)) (s := c.side r) ho
        rw [hlink] at h
        exact .inl h
      | some p =>
        obtain ⟨o, engine⟩ := p
        obtain ⟨hlink, hok⟩ := Linked.carryOut_of_handover (Exchange.connection (c.key r)) (s := c.side r) ho
        rcases Exchange.agent_mem_waiting_submit (hlink ▸ h) with h | ⟨o', ⟨⟩, hm, ha, hsent⟩
        · exact .inl h
        · exact .inr (.inl ⟨r, deed, o, engine, rfl, ho, hok.2 hsent, ha, hm⟩)
    | read r =>
      have hx : (c.move now (.event (.read r))).exchange = (c.exchange.take (c.key r)).2 := by
        rw [move, step]
        rcases c.exchange.take_cases (c.key r) with ht | ⟨b, ev, rest, -, ht⟩ <;> rw [ht]
        rfl
      exact .inl (Exchange.mem_waiting_of_take (hx ▸ h))
  | drop r => exact .inl (Exchange.mem_waiting_of_take h)
  | sweep r => exact .inl h
  | request r make =>
    refine .inl ((Exchange.agent_mem_waiting_submit h).resolve_right ?_)
    rintro ⟨o, ho, -⟩
    exact he _ o ho
  | serve key' rq =>
    rcases Exchange.agent_mem_waiting_submit h with h | ⟨o, rfl, rfl, -⟩
    · exact .inl h
    · exact .inr (.inr fun r hr => he o rfl r ((o.key_originFor _).symm.trans hr))
  | connect key' =>
    rw [move] at h
    split at h
    · next hx => exact .inl (Exchange.mem_waiting_of_connect hx h)
    · exact .inl h
  | disconnect key' => exact .inl (Exchange.waiting_disconnect c.exchange key' key ▸ h)
  | abandon key' => exact .inl (Exchange.mem_waiting_of_abandon h)

/-- What a side says goes along the lane. -/
theorem Addressed.route_of_says (h : c.Addressed id label told) (hopen : ∀ called body,
      e = .event (.act r (.opening called body)) →
      ((c.side r).openDialogue (Exchange.connection (c.key r)) now called body).1 = .ok id →
      called.key = c.key r.other → called.label.getD "" = label)
    {o : Outgoing} (hs : c.Says id now e r o) : o.route = .lane (c.key r) (c.key r.other) label := by
  obtain ⟨deed, engine, rfl, ho, hok, rfl, a, hdest, ha⟩ := hs
  rw [Outgoing.destination?] at hdest
  rcases Engine.handover_cases ho with ⟨called, body, rfl, hroute⟩ | ⟨d, hd, hroute⟩ <;>
    rw [hroute] at hdest ⊢
  · have hcalled : called.key = c.key r.other := (Uri.key_of_ofAddress hdest).symm.trans ha
    rw [← hopen called body rfl (Linked.openDialogue_of_handover (s := c.side r) ho hok) hcalled, ← hcalled]
    exact Route.towards_eq_lane ..
  · exact h.lanes r d hd (((h.aims r _ d hd).2 a hdest).symm.trans ha)

/-- STEP: whatever happens, all that is said goes along the lane. -/
theorem Addressed.move (h : c.Addressed id label told) (hapart : ∀ r, c.key r ≠ c.key r.other)
    (hplain : ∀ r, Address.PlainKey (c.key r)) (hlabel : '/' ∉ label.toList) (he : e.Proper c.key)
    (hopen : ∀ r called body, e = .event (.act r (.opening called body)) →
      ((c.side r).openDialogue (Exchange.connection (c.key r)) now called body).1 = .ok id →
      called.key = c.key r.other → called.label.getD "" = label) :
    (c.move now e).Addressed id label fun r o => told r o ∨ c.Says id now e r o where
  aims r := by
    rw [home_move]
    rcases c.engine_move now e r with hr | ⟨deed, rfl, hr⟩ | ⟨ev, -, -, hr⟩ | hr | ⟨n, hr⟩ <;> rw [hr]
    · exact h.aims r
    · exact Linked.holds_carryOut (s := c.side r) (Dialogue.lasting_aims _) he (h.aims r)
    · exact (h.aims r).observe (Dialogue.lasting_aims _) fun _ _ => trivial
    · exact (h.aims r).sweep (Dialogue.lasting_aims _)
    · exact h.aims r
  lanes r := by
    rw [key_move]
    rcases c.engine_move now e r with hr | ⟨deed, rfl, hr⟩ | ⟨ev, rfl, htaken, hr⟩ | hr | ⟨n, hr⟩ <;> rw [hr]
    · exact h.lanes r
    · refine (h.lanes r).carryOut (s := c.side r) _ (h.aims r) ?_
      rintro called body rfl
      exact hopen r called body rfl
    · refine (h.lanes r).observe (h.aims r) ?_
      rintro m rfl hid horigin
      obtain ⟨o, hold, rfl⟩ := h.boxes r m (Exchange.mem_waiting_of_taken htaken) hid horigin
      have hroute : o.route = .lane (c.key r.other) (c.key r) label := by
        have := h.routes r.other o hold
        rwa [Parley.other_other] at this
      exact (Outgoing.route_delivered (hplain r.other) (hplain r) hlabel hroute).trans (hroute ▸ rfl)
    · exact (h.lanes r).sweep now
    · exact h.lanes r
  routes r o ho := by
    rw [key_move]
    rcases ho with ho | ho
    · exact h.routes r o ho
    · exact h.route_of_says (hopen r) ho
  boxes r m hm hid horigin := by
    rw [key_move] at hm horigin ⊢
    rcases waiting_move he hm with hm | ⟨r', deed, o, engine, rfl, ho, hok, hdest, rfl⟩ | hnone
    · obtain ⟨o, ho, hm⟩ := h.boxes r m hm hid horigin
      exact ⟨o, .inl ho, hm⟩
    · have hkey : c.key r' = c.key r.other := (o.key_originFor (.ofKey (c.key r'))).symm.trans horigin
      obtain rfl : r' = r.other := key_inj hapart hkey
      refine ⟨o, .inr ⟨deed, engine, rfl, ho, hok, hid, ?_⟩, rfl⟩
      rwa [Parley.other_other]
    · exact absurd horigin (hnone r.other)

end Move

/-! ### Runs -/

section Runs

variable {c : Correspondence} {id : DialogueId} {es : List (Millis × Move)}

theorem moves_concat (c : Correspondence) (es : List (Millis × Move)) (e : Millis × Move) :
    c.moves (es ++ [e]) = (c.moves es).move e.1 e.2 :=
  List.foldl_append ..

theorem home_moves (c : Correspondence) (es : List (Millis × Move)) (r : Role) :
    (c.moves es).home r = c.home r := by
  induction es using List.reverseRecOn with
  | nil => rfl
  | append_singleton es e ih => rw [moves_concat, home_move, ih]

theorem key_moves (c : Correspondence) (es : List (Millis × Move)) : (c.moves es).key = c.key :=
  funext fun r => congrArg Address.key (c.home_moves es r)

theorem said_concat (c : Correspondence) (id : DialogueId) (es : List (Millis × Move)) (e : Millis × Move)
    (r : Role) (o : Outgoing) : c.Said id (es ++ [e]) r o ↔
      c.Said id es r o ∨ (c.moves es).Says id e.1 e.2 r o := by
  constructor
  · rintro ⟨pre, e', hpre, hs⟩
    rcases List.prefix_concat_iff.1 hpre with heq | hpre
    · obtain ⟨rfl, he⟩ := List.append_inj' heq rfl
      obtain rfl := List.singleton_inj.1 he
      exact .inr hs
    · exact .inl ⟨pre, e', hpre, hs⟩
  · rintro (⟨pre, e', hpre, hs⟩ | hs)
    · exact ⟨pre, e', hpre.trans (List.prefix_append ..), hs⟩
    · exact ⟨es, e, List.prefix_rfl, hs⟩

/-- Nobody has said anything yet. -/
theorem Unwritten.addressed (h : c.Unwritten) (id : DialogueId) (label : String) :
    c.Addressed id label (c.Said id []) where
  aims r := by
    obtain ⟨limits, start, hr⟩ := h.engine r
    exact (Engine.holds_new hr).2
  lanes r d hd := by
    obtain ⟨limits, start, hr⟩ := h.engine r
    obtain ⟨_, -, he⟩ := Result.bind_eq_ok_iff.1 hr
    rw [← Except.ok.inj he] at hd
    cases hd
  routes r o := by
    rintro ⟨pre, e, hpre, -⟩
    simp at hpre
  boxes r m hm := by
    obtain ⟨capacity, hx⟩ := h.exchange
    rw [hx] at hm
    cases hm

/-- RUN: whatever happens, all that is said goes along the lane. -/
theorem Unwritten.addressed_moves (h : c.Unwritten) {peer : Address}
    (hlabel : '/' ∉ (peer.label.getD "").toList) (hes : ∀ e ∈ es, e.2.Proper c.key)
    (hopen : c.OpensAs id peer es) : (c.moves es).Addressed id (peer.label.getD "") (c.Said id es) := by
  induction es using List.reverseRecOn with
  | nil => exact h.addressed id _
  | append_singleton es e ih =>
    have ih := ih (fun e' he' => hes e' (List.mem_append_left _ he'))
      fun pre now r called body hpre => hopen pre now r called body (hpre.trans (List.prefix_append ..))
    have hproper : e.2.Proper (c.moves es).key :=
      key_moves c es ▸ hes e (List.mem_append_right _ List.mem_cons_self)
    have hopens : ∀ r called body, e.2 = .event (.act r (.opening called body)) →
        (((c.moves es).side r).openDialogue (Exchange.connection ((c.moves es).key r)) e.1 called body).1 =
          .ok id →
        called.key = (c.moves es).key r.other → called.label.getD "" = peer.label.getD "" := by
      intro r called body he
      rw [key_moves]
      exact hopen es e.1 r called body (he ▸ List.prefix_rfl)
    rw [moves_concat, funext₂ fun r o => propext (said_concat c id es e r o)]
    exact ih.move (key_moves c es ▸ h.apart) (key_moves c es ▸ h.plain) hlabel hproper hopens

end Runs

/-! ### Two strangers -/

theorem says_of_handover {c : Correspondence} {now : Millis} {r : Role} {deed : Deed} {o : Outgoing}
    (ho : ((c.engine r).handover? now deed).map Prod.fst = some o) (hok : (c.carryOut r now deed).1 = .ok ())
    (hdest : o.destination?.map Address.key = some (c.key r.other)) :
    c.Says o.dialogue now (.event (.act r deed)) r o := by
  obtain ⟨⟨_, engine⟩, hover, rfl⟩ := Option.map_eq_some_iff.1 ho
  exact ⟨deed, engine, rfl, hover, hok, rfl, Option.map_eq_some_iff.1 hdest⟩

theorem hears_of_isOk {c : Correspondence} {now : Millis} {r : Role} {id : DialogueId} {m : Message}
    (htaken : (c.exchange.take (c.key r)).1 = some (.agent m)) (hid : m.dialogue = id)
    (horigin : m.origin.key = c.key r.other) (hr : ((c.engine r).receive m now).isOk) :
    ∃ d, c.Hears id now (.event (.read r)) r m d := by
  cases h : (c.engine r).receive m now with
  | error f =>
    rw [h] at hr
    cases hr
  | ok p => exact ⟨p.1, p.2, rfl, htaken, hid, horigin, h⟩

/-- Two new engines that are not connected yet. -/
def blank (keys : Role → String) (starts : Role → UInt32) : Correspondence where
  engine := (fresh keys starts).engine
  exchange := .new Exchange.defaultCapacity

theorem unwritten_blank {keys : Role → String} (hapart : keys .initiator ≠ keys .responder)
    (hplain : ∀ r, Address.PlainKey (keys r)) (starts : Role → UInt32) : (blank keys starts).Unwritten where
  apart := (Role.forall_iff .initiator).2 ⟨hapart, hapart.symm⟩
  plain := hplain
  engine r := ⟨{}, starts r, rfl⟩
  exchange := ⟨_, rfl⟩

/-- Alice and Bob, who both number their dialogues from 1. -/
def strangers : Correspondence := blank (fun | .initiator => "alice" | .responder => "bob") fun _ => 1

theorem unwritten_strangers : strangers.Unwritten :=
  unwritten_blank (by decide)
    ((Role.forall_iff .initiator).2 ⟨⟨by decide, by decide⟩, ⟨by decide, by decide⟩⟩) _

/-! ### Addressing -/

/-- ADDRESSING: at every moment of every run, if all dialogues that two engines open with each other
    under a number are about one label, what either says to the other under that number goes along the
    straight route with that label, comes from its key with that label, and arrives by the route by which
    it was sent; and what either commits from the other was said by the other before, and is answered
    along that route. -/
theorem same_lane {c : Correspondence} (h : c.Unwritten) {id : DialogueId} {peer : Address}
    (hlabel : '/' ∉ (peer.label.getD "").toList) {es : List (Millis × Move)}
    (hes : ∀ e ∈ es, e.2.Proper c.key) (hopen : c.OpensAs id peer es)
    {pre : List (Millis × Move)} {e : Millis × Move} (hpre : pre ++ [e] <+: es) :
    (∀ r o, (c.moves pre).Says id e.1 e.2 r o →
      o.route = .lane (c.key r) (c.key r.other) (peer.label.getD "") ∧
      (o.delivered (.ofKey (c.key r))).origin = (Address.ofKey (c.key r)).withLabel (peer.label.getD "") ∧
      (o.delivered (.ofKey (c.key r))).route (c.home r.other) = { o.route with direction := .inbound }) ∧
    ∀ r m d, (c.moves pre).Hears id e.1 e.2 r m d → ∃ o, c.Said id pre r.other o ∧
      m = o.delivered (.ofKey (c.key r.other)) ∧
      d.replyRoute = some { o.route with direction := .inbound } := by
  have hpart : pre <+: es := (List.prefix_append ..).trans hpre
  have hadd : (c.moves pre).Addressed id (peer.label.getD "") (c.Said id pre) :=
    h.addressed_moves hlabel (fun e' he' => hes e' (hpart.subset he'))
      fun pre' now r called body hpre' => hopen pre' now r called body (hpre'.trans hpart)
  have harrives : ∀ r (o : Outgoing), o.route = .lane (c.key r) (c.key r.other) (peer.label.getD "") →
      (o.delivered (.ofKey (c.key r))).route (c.home r.other) = { o.route with direction := .inbound } :=
    fun r o ho => Outgoing.route_delivered (h.plain r) (h.plain r.other) hlabel ho
  constructor
  · intro r o hs
    have hroute : o.route = .lane (c.key r) (c.key r.other) (peer.label.getD "") := by
      have := hadd.route_of_says (fun called body he => by
        rw [key_moves]
        exact hopen pre e.1 r called body (he ▸ hpre)) hs
      rwa [key_moves] at this
    exact ⟨hroute, Outgoing.originFor_lane (h.plain r).named hroute, harrives r o hroute⟩
  · rintro r m d ⟨engine, -, htaken, hid, horigin, hr⟩
    obtain ⟨o, ho, rfl⟩ := hadd.boxes r m (Exchange.mem_waiting_of_taken htaken) hid horigin
    have hroute := hadd.routes r.other o ho
    rw [key_moves] at hroute ⊢
    refine ⟨o, ho, rfl, ?_⟩
    obtain ⟨hd, -, -⟩ := Engine.receive_eq_ok_iff.1 hr
    obtain ⟨-, s, -, rfl⟩ := Dialogue.receive_eq_ok_iff.1 hd
    have harrived := harrives r.other o hroute
    rw [Parley.other_other, ← home_moves c pre r, ← key_moves c pre] at harrived
    exact congrArg some (key_moves c pre ▸ harrived)

/-- Alice calls Bob about the weather; his proposal reaches her on the lane of her call. -/
theorem proposal_on_lane :
    let c := strangers
    let es : List (Millis × Move) :=
      [(0, .connect "alice"), (0, .connect "bob"),
        (1, .event (.act .initiator (.opening ⟨"bob", some "weather"⟩ (.cfp .nothing)))),
        (2, .event (.read .responder)), (3, .event (.act .responder (.answer 1 (.propose (.content []))))),
        (4, .event (.read .initiator))]
    c.Unwritten ∧ (∀ e ∈ es, e.2.Proper c.key) ∧ c.OpensAs 1 ⟨"bob", some "weather"⟩ es ∧
    ∃ m d, (c.moves (es.take 5)).Hears 1 4 (.event (.read .initiator)) .initiator m d ∧
      d.replyRoute = some { Route.lane "bob" "alice" "weather" with direction := .inbound } := by
  intro c es
  have hnew : c.Unwritten := unwritten_strangers
  have hproper : ∀ e ∈ es, e.2.Proper c.key := by
    simp [es, Move.Proper, Deed.Proper]
  have hopens : c.OpensAs 1 ⟨"bob", some "weather"⟩ es := by
    intro pre now r called body hpre _ _
    have hmem : (now, Move.event (.act r (.opening called body))) ∈ es :=
      hpre.subset (List.mem_append_right _ List.mem_cons_self)
    simp only [es, List.mem_cons, Prod.mk.injEq, Move.event.injEq, Event.act.injEq, Deed.opening.injEq,
      reduceCtorEq, and_false, List.not_mem_nil, or_false, false_or] at hmem
    obtain ⟨-, -, rfl, -⟩ := hmem
    rfl
  have hlabel : '/' ∉ (Address.label ⟨"bob", some "weather"⟩ |>.getD "").toList := by decide
  let o : Outgoing :=
    { answer := 2, dialogue := 1, target := 1, route := .lane "bob" "alice" "weather"
      body := .propose (.content []) }
  obtain ⟨d, hhears⟩ : ∃ d, (c.moves (es.take 5)).Hears 1 4 (.event (.read .initiator)) .initiator
      (o.delivered (.ofKey "bob")) d := by
    exact hears_of_isOk (by decide +kernel) rfl (by decide +kernel) (by decide +kernel)
  obtain ⟨-, hheard⟩ := same_lane hnew hlabel hproper hopens
    (show es.take 5 ++ [(4, .event (.read .initiator))] <+: es from List.prefix_rfl)
  obtain ⟨o, ⟨pre, e, hpre, hsays⟩, -, hreply⟩ := hheard .initiator _ d hhears
  obtain ⟨hsaid, -⟩ := same_lane hnew hlabel hproper hopens (hpre.trans (List.take_prefix 5 es))
  refine ⟨hnew, hproper, hopens, _, d, hhears, ?_⟩
  rw [hreply, (hsaid _ o hsays).1]
  rfl

/-- Alice opens a conversation with Bob's label x, and Bob one with her label y under the same number.
Each refuses the other's first message, and she takes his second one in her own dialogue: she has said
her first message in it along the lane of x, and says the next one along the lane of y. -/
theorem lanes_cross :
    let c := strangers
    let es : List (Millis × Move) :=
      [(0, .connect "alice"), (0, .connect "bob"),
        (0, .event (.act .initiator (.opening ⟨"bob", some "x"⟩ (.message [104])))),
        (0, .event (.act .responder (.opening ⟨"alice", some "y"⟩ (.message [105])))),
        (0, .event (.read .initiator)), (0, .event (.read .responder)),
        (0, .event (.act .responder (.answer 1 (.message [106])))), (0, .event (.read .initiator)),
        (0, .event (.act .initiator (.answer 1 (.message [107]))))]
    c.Unwritten ∧ (∀ e ∈ es, e.2.Proper c.key) ∧
    (∃ d, (c.moves es).entry .initiator 1 = some d ∧ d.role = .initiator ∧
      d.counterparty = ⟨"bob", some "x"⟩) ∧
    ∃ o o', c.Said 1 es .initiator o ∧ c.Said 1 es .initiator o' ∧
      o.route = .lane "alice" "bob" "x" ∧ o'.route = .lane "alice" "bob" "y" := by
  intro c es
  have hproper : ∀ e ∈ es, e.2.Proper c.key := by
    simp [es, Move.Proper, Deed.Proper]
  have hheld : ((c.moves es).entry .initiator 1).map (fun d => (d.role, d.counterparty)) =
      some (.initiator, ⟨"bob", some "x"⟩) := by decide +kernel
  obtain ⟨d, hd, hpair⟩ := Option.map_eq_some_iff.1 hheld
  obtain ⟨hrole, hpeer⟩ := Prod.mk.inj hpair
  let first : Outgoing :=
    { answer := 1, dialogue := 1, target := 0, route := .lane "alice" "bob" "x", body := .message [104] }
  let next : Outgoing :=
    { answer := 3, dialogue := 1, target := 2, route := .lane "alice" "bob" "y", body := .message [107] }
  have hfirst : (c.moves (es.take 2)).Says 1 0
      (.event (.act .initiator (.opening ⟨"bob", some "x"⟩ (.message [104])))) .initiator first :=
    says_of_handover (by decide +kernel) (by decide +kernel) (by decide +kernel)
  have hnext : (c.moves (es.take 8)).Says 1 0 (.event (.act .initiator (.answer 1 (.message [107]))))
      .initiator next :=
    says_of_handover (by decide +kernel) (by decide +kernel) (by decide +kernel)
  exact ⟨unwritten_strangers, hproper, ⟨d, hd, hrole, hpeer⟩, first, next,
    ⟨es.take 2, _, List.take_prefix 3 es, hfirst⟩, ⟨es.take 8, _, List.take_prefix 9 es, hnext⟩, rfl, rfl⟩

end Negotiation.Correspondence
