import Negotiation.Proofs.Agent.Reachable
import Negotiation.Proofs.Agent.Record
import Negotiation.Proofs.Table.Upkeep
import Negotiation.Proofs.Weather.Choice

/-!
The offers that a client accepts. A client remembers an offer until it decides; meanwhile the dialogue
of the offer may close, by a decline of the station, by an error or by a sweep. An error and a timeout
make the client forget the offer, but only when it is told of them, and a decline does not. So the offer
that it accepts is still on the table, unless the client was told of a decline of it, or a sweep has
closed it and the client was not told yet; both happen. Main statement: `accepted_offer`.
-/

namespace Negotiation

theorem lasting_coherent (home : Address) : Lasting home (fun _ => True) Dialogue.Coherent where
  opened {_ _ _ now _} _ hs := (Dialogue.coherent_new ..).sent hs now
  called {m now _} _ hx hs := (Dialogue.coherent_new ..).received hx hs (m.route home) now
  sent {_ _ now _} h hs := h.sent hs now
  received {_ m now _} h hx hs := h.received hx hs (m.route home) now
  applied h _ ha := h.applied ha

/-! ### Proposals on the table -/

/-- A proposal of the counterparty stands in a dialogue. -/
def Engine.Proposed (e : Engine) (id : DialogueId) : Prop :=
  ∃ d, e.table.get? id = some d ∧ d.state = .proposalReceived

namespace Engine.Proposed

variable {e : Engine} {id : DialogueId} {now : Millis}

theorem put (h : e.Proposed id) {d : Dialogue} (hne : d.id ≠ id) : (e.put d).Proposed id := by
  obtain ⟨d₀, hd, hst⟩ := h
  exact ⟨d₀, by rw [get?_put, if_neg hne, hd], hst⟩

theorem opened {β : Type} {s : Linked β} (h : s.engine.Proposed id) (T : Transport β) (now : Millis)
    (peer : Address) (body : Body) : (s.openDialogue T now peer body).2.engine.Proposed id := by
  rcases s.openDialogue_engine T now peer body with ⟨a, he⟩ | ⟨id', a, st, hn, -, -, he⟩ <;> rw [he]
  · exact h
  · refine put (e := s.engine.allocating a) h ?_
    rintro rfl
    obtain ⟨d, hd, -⟩ := h
    exact absurd (hn.symm.trans hd) (by simp)

theorem replied {β : Type} {s : Linked β} (h : s.engine.Proposed id) (hs : s.engine.Reachable)
    (T : Transport β) (now : Millis) {id' : DialogueId} (hne : id' ≠ id) (body : Body) :
    (s.reply T now id' body).2.engine.Proposed id := by
  rw [Linked.reply]
  cases ha : s.engine.answering now id' body with
  | error f => exact h
  | ok r =>
    obtain ⟨d, st, hd, -, -, he⟩ := answering_eq_ok_iff.1 ha
    have hid : (d.sent now st).id ≠ id := (hs.id_eq hd).symm ▸ hne
    show r.2.Proposed id
    exact he ▸ h.put hid

/-- A proposal stands until the counterparty declines or an error is reported. -/
theorem observe (h : e.Proposed id) (he : e.Reachable) (now : Millis) (event : Event) :
    (e.observe now event).2.1.Proposed id ∨
    (∃ d, (e.observe now event).1 = .decline d ∧ d.id = id) ∨
    ∃ origin d, (e.observe now event).1 = .dialogueError id origin d := by
  cases event with
  | agent m =>
    rw [Engine.observe]
    cases hr : e.receive m now with
    | error f => exact .inl h
    | ok r =>
      obtain ⟨hrec, hput, -⟩ := receive_eq_ok_iff.1 hr
      have hid : r.1.id = m.dialogue :=
        (Dialogue.receive_id hrec).trans ((he.holds lasting_true).found_id m now)
      by_cases hm : m.dialogue = id
      · -- only a decline is legal here
        subst hm
        obtain ⟨d, hd, hst⟩ := h
        obtain ⟨-, s, hs, -⟩ := Dialogue.receive_eq_ok_iff.1 hrec
        rw [found, hd, Option.getD_some, hst] at hs
        have hbody : m.body = .decline := by
          cases hb : m.body <;>
            simp [hb, Body.step, Transition.receive, State.next?, State.afterStep?] at hs ⊢
        exact .inr (.inl ⟨r.1, by rw [hbody]; rfl, hid⟩)
      · exact .inl (show r.2.Proposed id from hput ▸ h.put (hid.symm ▸ hm))
  | searchResult search agents => exact .inl h
  | searchResultWide search items => exact .inl h
  | requestError request operation cause detail => exact .inl h
  | dialogueError answer id' origin =>
    by_cases hid : id' = id
    · exact .inr (.inr ⟨origin, (e.abort id' now).1, by rw [← hid]; rfl⟩)
    · refine .inl ?_
      show (e.abort id' now).2.Proposed id
      rcases e.abort_cases id' now with ha | ⟨d, d', hd, happ, ha⟩ <;> rw [ha]
      · exact h
      · exact h.put (((Dialogue.apply_id happ).trans (he.id_eq hd)).symm ▸ hid)

/-- A sweep leaves a proposal on the table, or it closes the dialogue and says so. -/
theorem sweep (h : e.Proposed id) (he : e.Reachable) (now : Millis) :
    (e.sweep now).2.Proposed id ∨ ∃ d ∈ (e.sweep now).1.timedOut, d.id = id := by
  obtain ⟨d, hd, hst⟩ := h
  cases ht : Table.timeOut? e.table.limits now d with
  | some d' =>
    refine .inr ⟨d', List.mem_filterMap.2 ⟨d, ?_, ht⟩, (Table.timeOut?_id ht).trans (he.id_eq hd)⟩
    exact List.mem_map.2 ⟨(id, d), SortedMap.mem_toList_iff.2 hd, rfl⟩
  | none =>
    have hopen : d.closedAt = none := by
      by_contra hne
      have hclosed := ((he.holds lasting_coherent id d hd).2.closed_iff).2 hne
      simp [Dialogue.isClosed, State.isClosed, hst] at hclosed
    refine .inl ⟨d, ?_, hst⟩
    rw [get?_sweep, hd]
    simp [Table.swept, ht, Dialogue.isExpired, hopen, Option.filter]

end Engine.Proposed

/-- A proposal that is reported has just been made. -/
theorem Engine.Reachable.observe_propose {e : Engine} (he : e.Reachable) {now : Millis} {event : Event}
    {d : Dialogue} {p : Proposal} (hn : (e.observe now event).1 = .propose d p) :
    (e.observe now event).2.1.Proposed d.id ∧ ¬ e.Proposed d.id := by
  cases event with
  | agent m =>
    rw [Engine.observe] at hn ⊢
    cases hr : e.receive m now with
    | error f => rw [hr] at hn; cases hn
    | ok r =>
      rw [hr] at hn
      obtain ⟨hrec, hput, -⟩ := Engine.receive_eq_ok_iff.1 hr
      have hid : r.1.id = m.dialogue :=
        (Dialogue.receive_id hrec).trans ((he.holds lasting_true).found_id m now)
      obtain ⟨-, s, hs, hd'⟩ := Dialogue.receive_eq_ok_iff.1 hrec
      obtain ⟨hbody, rfl⟩ : m.body = .propose p ∧ r.1 = d := by
        cases hb : m.body <;> simp [hb, Notice.ofBody] at hn
        exact ⟨hn.2 ▸ rfl, hn.1⟩
      have hstep : m.body.step = .propose := by rw [hbody]; rfl
      rw [hstep] at hs
      obtain ⟨hsent, rfl⟩ : (e.found m now).state = .cfpSent ∧ s = .proposalReceived := by
        have hcases := State.next?_step_cases hs
        simp only [reduceCtorEq, false_and, and_false, or_false, false_or, true_and] at hcases
        exact hcases
      constructor
      · refine ⟨r.1, ?_, by rw [hd']; rfl⟩
        show r.2.table.get? r.1.id = some r.1
        rw [hput, Engine.get?_put, if_pos rfl]
      · rintro ⟨d₀, hd₀, hst⟩
        rw [hid] at hd₀
        rw [Engine.found, hd₀, Option.getD_some, hst] at hsent
        cases hsent
  | searchResult search agents => cases hn
  | searchResultWide search items => cases hn
  | requestError request operation cause detail => cases hn
  | dialogueError answer id origin => cases hn

namespace Weather.Client

variable {c : Client} {id : DialogueId} {told told' : List Notice} {u : List Dialogue}

/-! ### What the client asks for -/

/-- Answers by which a client decides nothing, or accepts an offer that it holds; `B` is what is known
of its offers. -/
def Sound (B : DialogueId → Prop) (c : Client) (r : List Action × Client) : Prop :=
  (∀ id, .accept id ∈ r.1 → B id) ∧ r.2.offers = c.offers ∧
    (r.2.accepted = none → r.1 = [] ∧ c.accepted = none)

theorem sound_conclude {B : DialogueId → Prop}
    (h : c.accepted = none → ∀ id o, c.offers.get? id = some o → B id) : Sound B c c.conclude := by
  rw [conclude]
  split
  · exact ⟨by simp, rfl, fun hn => ⟨rfl, hn⟩⟩
  · next hopen =>
    have hn : c.accepted = none := by simpa using (not_or.1 hopen).1
    by_cases hnil : c.offers.toList = []
    · rw [hnil]
      exact ⟨by simp [best?], rfl, fun _ => ⟨rfl, hn⟩⟩
    · obtain ⟨⟨winner, o⟩, hmem, hbest, -⟩ := best?_spec _ hnil
      rw [hbest]
      refine ⟨fun id hid => ?_, rfl, by rintro ⟨⟩⟩
      obtain rfl : id = winner := by simpa using hid
      exact h hn id o (SortedMap.mem_toList_iff.1 hmem)

theorem sound_settle {B : DialogueId → Prop}
    (h : c.accepted = none → ∀ id o, c.offers.get? id = some o → B id) (id : DialogueId) :
    Sound B c (c.settle id) := by
  rw [settle]
  split
  · exact sound_conclude h
  · exact sound_conclude
      (c := { c with answered := c.answered.insert id (), outstanding := c.outstanding - 1 }) h

/-- What a client answers to news: `B` is known of what it accepts and, as long as it accepts nothing,
of the offers that it holds; until then it calls, and declines proposals that are no offers. -/
structure Response (B : DialogueId → Prop) (c : Client) (n : Notice) : Prop where
  accepts : ∀ id, .accept id ∈ (c.react n).1 → B id
  undecided : (c.react n).2.accepted = none → c.accepted = none
  offers : (c.react n).2.accepted = none → ∀ id o, (c.react n).2.offers.get? id = some o → B id
  asks : (c.react n).2.accepted = none → ∀ a ∈ (c.react n).1, (∃ peer payload, a = .cfp peer payload) ∨
    ∃ d p, n = .propose d p ∧ a = .decline d.id ∧ (c.react n).2.offers = c.offers

theorem Sound.response {B : DialogueId → Prop} {c' : Client} {n : Notice} (h : Sound B c' (c.react n))
    (hsame : c'.accepted = c.accepted)
    (hB : c'.accepted = none → ∀ id o, c'.offers.get? id = some o → B id) : Response B c n where
  accepts := h.1
  undecided hn := hsame ▸ (h.2.2 hn).2
  offers hn id o ho := hB (h.2.2 hn).2 id o (h.2.1 ▸ ho)
  asks hn a ha := by
    rw [(h.2.2 hn).1] at ha
    cases ha

/-- The news by which a client forgets an offer. -/
def Forgets (n : Notice) (id : DialogueId) : Prop :=
  (∃ origin d, n = .dialogueError id origin d) ∨ ∃ d, n = .timeout d ∧ d.id = id

section Responses

variable {B : DialogueId → Prop} {n : Notice}

/-- News that leaves a client as it is. -/
theorem response_of_same (hB : c.accepted = none → ∀ id o, c.offers.get? id = some o → B id)
    (hr : c.react n = ([], c)) : Response B c n := by
  have hs : Sound B c (c.react n) := hr.symm ▸ ⟨by simp, rfl, fun hn => ⟨rfl, hn⟩⟩
  exact hs.response rfl hB

/-- An offer that is forgotten need not be known of. -/
theorem response_withdraw (hB : c.accepted = none → ∀ id o, c.offers.get? id = some o → ¬ Forgets n id → B id)
    (hforgets : ∀ id', Forgets n id' ↔ id' = id) (hr : c.react n = c.withdraw id) : Response B c n := by
  have hrest : c.accepted = none → ∀ id' o, (c.offers.erase id).get? id' = some o → B id' := by
    intro hn id' o ho
    rw [SortedMap.get?_erase] at ho
    split at ho
    · cases ho
    · next hne => exact hB hn id' o ho (mt (hforgets id').1 (Ne.symm hne))
  have hs := sound_settle (c := { c with offers := c.offers.erase id }) hrest id
  rw [withdraw] at hr
  rw [← hr] at hs
  exact hs.response rfl hrest

theorem response_propose {d : Dialogue} {p : Proposal}
    (hB : c.accepted = none → ∀ id o, c.offers.get? id = some o → B id) (hnew : B d.id) :
    Response B c (.propose d p) := by
  have hdecline : c.react (.propose d p) = (.decline d.id :: (c.settle d.id).1, (c.settle d.id).2) →
      Response B c (.propose d p) := by
    intro hr
    have hs := sound_settle hB d.id
    refine ⟨?_, ?_, ?_, ?_⟩ <;> rw [hr]
    · intro id hid
      exact hs.1 id (by simpa using hid)
    · exact fun hn => (hs.2.2 hn).2
    · exact fun hn id o ho => hB (hs.2.2 hn).2 id o (hs.2.1 ▸ ho)
    · intro hn a ha
      rw [(hs.2.2 hn).1, List.mem_singleton] at ha
      exact .inr ⟨d, p, rfl, ha, hs.2.1⟩
  cases hp : priceOf p with
  | none => exact hdecline (by simp [react, onPropose, hp])
  | some price =>
    cases hacc : c.accepted with
    | some winner => exact hdecline (by simp [react, onPropose, hp, hacc])
    | none =>
      have hr : c.react (.propose d p) =
          settle { c with offers := c.offers.insert d.id ⟨d.counterparty, price⟩ } d.id := by
        simp [react, onPropose, hp, hacc]
      have hmore : c.accepted = none → ∀ id o,
          (c.offers.insert d.id ⟨d.counterparty, price⟩).get? id = some o → B id := by
        intro hn id o ho
        rw [SortedMap.get?_insert] at ho
        split at ho
        · next hid => exact hid ▸ hnew
        · exact hB hn id o ho
      have hs := sound_settle
        (c := { c with offers := c.offers.insert d.id ⟨d.counterparty, price⟩ }) hmore d.id
      rw [← hr] at hs
      exact hs.response rfl hmore

/-- A client that has not decided passes over messages, and one that has ends the dialogue. -/
theorem response_message {d : Dialogue} {content : Bytes}
    (hB : c.accepted = none → ∀ id o, c.offers.get? id = some o → B id) :
    Response B c (.message d content) := by
  cases hacc : c.accepted with
  | none => exact response_of_same hB (by simp [react, onMessage, hacc])
  | some winner =>
    have hends : (∀ id, .accept id ∉ (c.react (.message d content)).1) ∧
        (c.react (.message d content)).2.accepted ≠ none := by
      simp only [react, onMessage, hacc]
      split
      · exact ⟨by simp, by simp [hacc]⟩
      · split <;> exact ⟨by simp, by simp [hacc]⟩
    exact ⟨fun id hid => absurd hid (hends.1 id), fun hn => absurd hn hends.2,
      fun hn => absurd hn hends.2, fun hn => absurd hn hends.2⟩

theorem response_react
    (hB : c.accepted = none → ∀ id o, c.offers.get? id = some o → ¬ Forgets n id → B id)
    (hnew : ∀ d p, n = .propose d p → B d.id) : Response B c n := by
  have hheld : (∀ id, ¬ Forgets n id) → c.accepted = none → ∀ id o, c.offers.get? id = some o → B id :=
    fun hkeep hn id o ho => hB hn id o ho (hkeep id)
  cases n with
  | searchResult search agents =>
    have hheld := hheld fun id => by simp [Forgets]
    by_cases hs : c.search = some search
    · have hr : c.react (.searchResult search agents) = (agents.map fun a => .cfp a (.query query),
          { c with outstanding := c.outstanding + agents.length }) := by rw [react, if_pos hs]
      refine ⟨?_, ?_, ?_, ?_⟩ <;> rw [hr]
      · simp
      · exact id
      · exact hheld
      · intro _ a ha
        obtain ⟨peer, -, rfl⟩ := List.mem_map.1 ha
        exact .inl ⟨peer, _, rfl⟩
    · exact response_of_same hheld (by rw [react, if_neg hs])
  | propose d p => exact response_propose (hheld fun id => by simp [Forgets]) (hnew d p rfl)
  | message d content => exact response_message (hheld fun id => by simp [Forgets])
  | decline d =>
    have hheld := hheld fun id => by simp [Forgets]
    exact Sound.response (sound_settle hheld d.id) rfl hheld
  | dialogueError id origin d => exact response_withdraw hB (fun id' => by simp [Forgets, eq_comm]) rfl
  | timeout d => exact response_withdraw hB (fun id' => by simp [Forgets, eq_comm]) rfl
  | actionFailed action f =>
    have hstay : c.accepted = none → ∀ id o, c.offers.get? id = some o → B id :=
      hheld fun id => by simp [Forgets]
    cases action with
    | cfp peer payload =>
      have hs := sound_conclude (c := { c with outstanding := c.outstanding - 1 }) hstay
      exact Sound.response hs rfl hstay
    | _ => exact response_of_same hstay rfl
  | _ => exact response_of_same (hheld fun id => by simp [Forgets]) rfl

end Responses

/-! ### Runs -/

/-- The counterparty declined and the client was told, or a sweep closed the dialogue and it was not. -/
def Withdrawn (told : List Notice) (u : List Dialogue) (id : DialogueId) : Prop :=
  (∃ d, .decline d ∈ told ∧ d.id = id) ∨ ∃ d ∈ u, d.id = id

/-- What is known of the offers that a client holds. -/
def Backed (e : Engine) (told : List Notice) (u : List Dialogue) (id : DialogueId) : Prop :=
  e.Proposed id ∨ Withdrawn told u id

/-- An action of a client that has not decided: it calls, or declines what it does not hold. -/
def Mild (c : Client) (told : List Notice) (u : List Dialogue) (a : Action) : Prop :=
  (∃ peer payload, a = .cfp peer payload) ∨
  ∃ id, a = .decline id ∧ (c.offers.get? id = none ∨ Withdrawn told u id)

theorem Withdrawn.mono (h : Withdrawn told u id) (n : Notice) : Withdrawn (told ++ [n]) u id :=
  h.imp_left fun ⟨d, hd, hid⟩ => ⟨d, List.mem_append_left _ hd, hid⟩

section Runs

variable {β : Type}

/-- How a run stands for a client, as long as it has not decided. -/
structure Deciding (told : List Notice) (x : Linked.Standing β Client) : Prop where
  reachable : x.linked.engine.Reachable
  offers : x.memory.accepted = none → ∀ id o, x.memory.offers.get? id = some o →
    Backed x.linked.engine told x.unreported id
  waiting : x.memory.accepted = none → ∀ a ∈ x.waiting, Mild x.memory told x.unreported a

/-- An action of the client costs it no offer. -/
theorem Deciding.execute {s : Linked β} {rest : List Action} {a : Action}
    (h : Deciding told ⟨s, c, u, a :: rest⟩) (T : Transport β) (now : Millis) :
    Deciding told ⟨(s.execute T now a).2, c, u, rest⟩ where
  reachable := h.reachable.act T now a
  offers hn id o ho := by
    refine (h.offers hn id o ho).elim (fun hp => ?_) .inr
    rcases h.waiting hn a List.mem_cons_self with ⟨peer, payload, rfl⟩ | ⟨id', rfl, hid'⟩
    · exact .inl (hp.opened T now peer (.cfp payload))
    · by_cases hid : id' = id
      · have hout : Withdrawn told u id' := hid'.resolve_left (by
          rw [hid]
          exact ne_of_eq_of_ne ho (Option.some_ne_none o))
        exact .inr (hid ▸ hout)
      · exact .inl (hp.replied h.reachable T now hid .decline)
  waiting hn a' ha' := h.waiting hn a' (List.mem_cons_of_mem a ha')

/-- What a client accepts at some moment is known of. -/
def Accepts (told : List Notice) (k : Consult Client) : Prop :=
  ∀ id, .accept id ∈ (k.memory.react k.news).1 → Backed k.engine told k.unreported id

/-- What a client accepts in some entries is known of, and behind them the run stands as before. -/
def Fares (told : List Notice) (l : List (Entry β Client)) (x : Linked.Standing β Client) : Prop :=
  (∀ k ∈ Linked.consulted l, Accepts (told ++ Linked.newsOf l) k) ∧ Deciding (told ++ Linked.newsOf l) x

theorem Deciding.fares {x : Linked.Standing β Client} (h : Deciding told x) {l : List (Entry β Client)}
    (hl : Linked.consulted l = []) : Fares told l x := by
  rw [Fares, Linked.newsOf, hl]
  exact ⟨by rintro k ⟨⟩, by simpa using h⟩

/-- News for a client. -/
theorem fares_tell {x : Linked.Standing β Client} {n : Notice} (hs : x.linked.engine.Reachable)
    (hB : x.memory.accepted = none → ∀ id o, x.memory.offers.get? id = some o → ¬ Forgets n id →
      Backed x.linked.engine (told ++ [n]) x.unreported id)
    (hnew : ∀ d p, n = .propose d p → Backed x.linked.engine (told ++ [n]) x.unreported d.id ∧
      (x.memory.accepted = none →
        x.memory.offers.get? d.id = none ∨ Withdrawn told x.unreported d.id))
    (hrest : x.memory.accepted = none → ∀ a ∈ x.waiting,
      (∀ d p, n ≠ .propose d p) ∧ Mild (x.memory.react n).2 told x.unreported a) :
    Fares told [x.telling n] (x.tell handler n) := by
  have hr := response_react (c := x.memory) (n := n) hB fun d p hn => (hnew d p hn).1
  refine ⟨fun k hk => List.mem_singleton.1 hk ▸ hr.accepts, hs, hr.offers, fun hn a ha => ?_⟩
  rcases List.mem_append.1 ha with ha | ha
  · exact ((hrest (hr.undecided hn) a ha).2).imp_right fun ⟨id, he, hid⟩ =>
      ⟨id, he, hid.imp_right (·.mono n)⟩
  · rcases hr.asks hn a ha with hcfp | ⟨d, p, hprop, he, hsame⟩
    · exact .inl hcfp
    · refine .inr ⟨d.id, he, ?_⟩
      show (x.memory.react n).2.offers.get? d.id = none ∨ _
      rw [hsame]
      exact ((hnew d p hprop).2 (hr.undecided hn)).imp_right (·.mono n)

theorem offers_actionFailed (c : Client) (a : Action) (f : Failure) :
    (c.react (.actionFailed a f)).2.offers = c.offers := by
  cases a with
  | cfp peer payload =>
    exact (sound_conclude (B := fun _ => True) (c := { c with outstanding := c.outstanding - 1 })
      fun _ _ _ _ => trivial).2.1
  | _ => rfl

/-- In a step of a run, what the client accepts is known of. -/
theorem Deciding.step {T : Transport β} {x y : Linked.Standing β Client}
    {g : List (Millis × Linked.Signal)} {l : List (Entry β Client)} (h : Deciding told x)
    (hs : Linked.Step T handler x g l y) : Fares told l y := by
  cases hs with
  | @done now s s' c u a rest ha =>
    have hnext := h.execute T now
    rw [ha] at hnext
    exact hnext.fares rfl
  | @fatal now s s' c u a f rest ha hf =>
    have hnext := h.execute T now
    rw [ha] at hnext
    exact Deciding.fares (x := ⟨s', c, u, []⟩) ⟨hnext.reachable, hnext.offers, by simp⟩ rfl
  | @failed now s s' c u a f rest ha hf =>
    have hnext := h.execute T now
    rw [ha] at hnext
    refine fares_tell (x := ⟨s', c, u, rest⟩) hnext.reachable (fun hn id o ho _ => ?_) (by simp)
      fun hn a' ha' => ⟨by simp, ?_⟩
    · exact (hnext.offers hn id o ho).imp_right (·.mono _)
    · rw [Mild, offers_actionFailed]
      exact hnext.waiting hn a' ha'
  | @event now s c u ev n engine verdict ho =>
    obtain ⟨rfl, rfl⟩ : n = (s.engine.observe now ev).1 ∧ engine = (s.engine.observe now ev).2.1 := by
      simp [ho]
    refine fares_tell (h.reachable.observe now ev) (fun hn id o ho hkept => ?_)
      (fun d p hprop => ⟨?_, fun hn => ?_⟩) (by simp)
    · -- an offer that it holds
      rcases h.offers hn id o ho with hp | hw
      · rcases hp.observe h.reachable now ev with hp | ⟨d, hd, hid⟩ | ⟨origin, d, hd⟩
        · exact .inl hp
        · exact .inr (.inl ⟨d, by rw [hd]; exact List.mem_append_right _ List.mem_cons_self, hid⟩)
        · exact absurd (.inl ⟨origin, d, hd⟩) hkept
      · exact .inr (hw.mono _)
    · exact .inl (h.reachable.observe_propose hprop).1
    · -- a new proposal in a dialogue of which it holds an offer already, which was withdrawn
      show c.offers.get? d.id = none ∨ _
      cases ho : c.offers.get? d.id with
      | none => exact .inl rfl
      | some o => exact .inr ((h.offers hn d.id o ho).resolve_left (h.reachable.observe_propose hprop).2)
  | sweep now s c u =>
    refine Deciding.fares ⟨h.reachable.sweep now, fun hn id o ho => ?_, by simp⟩ rfl
    rcases h.offers hn id o ho with hp | hd | ⟨d, hd, hid⟩
    · rcases hp.sweep h.reachable now with hp | ⟨d, hd, hid⟩
      · exact .inl hp
      · exact .inr (.inr ⟨d, List.mem_append_left _ hd, hid⟩)
    · exact .inr (.inl hd)
    · exact .inr (.inr ⟨d, List.mem_append_right _ hd, hid⟩)
  | shutdown now s c u => exact h.fares rfl
  | report s c d u =>
    refine fares_tell (x := ⟨s, c, u, []⟩) h.reachable (fun hn id o ho hkept => ?_) (by simp) (by simp)
    rcases h.offers hn id o ho with hp | hd | ⟨d', hd', hid⟩
    · exact .inl hp
    · exact .inr (Withdrawn.mono (.inl hd) _)
    · rcases List.mem_cons.1 hd' with rfl | hd'
      · exact absurd (.inr ⟨d', rfl, hid⟩) hkept
      · exact .inr (.inr ⟨d', hd', hid⟩)

end Runs

/-- ACCEPTING: in every run of an engine for a client that holds no offer at first, over any transport,
    with any events and sweeps in any order and at any times: whenever the client, told something, asks
    to accept an offer, the proposal stands in the dialogue in the engine's table, or the client was
    told, then or before, that the counterparty declined, or a sweep has closed the dialogue and the
    client was not told yet. -/
theorem accepted_offer {β : Type} (T : Transport β) (bound : Nat) {s : Linked β}
    (hs : s.engine.Reachable) {c : Client} (hc : c.offers = .empty)
    (signals : List (Millis × Linked.Signal)) {before after : List (Consult Client)} {k : Consult Client}
    (hk : Linked.consults T handler bound s c [] signals = before ++ k :: after) {id : DialogueId}
    (ha : .accept id ∈ (handler.react k.memory k.news).1) :
    (∃ d, k.engine.table.get? id = some d ∧ d.state = .proposalReceived) ∨
    (∃ k' ∈ before ++ [k], ∃ d, k'.news = .decline d ∧ d.id = id) ∨
    ∃ d ∈ k.unreported, d.id = id := by
  have hstart : Deciding [] (⟨s, c, [], []⟩ : Linked.Standing β Client) := by
    refine ⟨hs, fun _ id o ho => ?_, by simp⟩
    rw [hc] at ho
    cases ho
  obtain ⟨_, _, b, l, x, y, htb, hstep, hkl, htold⟩ := Linked.exists_step_of_consults_eq hk
  have hbefore : Deciding (Linked.newsOf b) x := htb.keeps
    (K := fun past x => Deciding (Linked.newsOf past) x)
    (fun h hs => Linked.newsOf_append .. ▸ (h.step hs).2) [] hstart
  rcases (hbefore.step hstep).1 k hkl id ha with hp | ⟨d, hd, hid⟩ | hu
  · exact .inl hp
  · obtain ⟨k', hk', hnews⟩ := List.mem_map.1 (htold ▸ hd)
    exact .inr (.inl ⟨k', hk', d, hnews, hid⟩)
  · exact .inr (.inr hu)

/-- A station that has made an offer declines it, and the client accepts it when the other station has
    declined as well. -/
theorem declined_offer_accepted :
    let e : Engine := { home := .ofKey "alice", table := .new {} 1 }
    let bob : Message := { answer := 2, dialogue := 1, origin := .ofKey "bob", target := 1, body := .decline }
    let carol : Message := { bob with dialogue := 2, origin := .ofKey "carol" }
    let signals : List (Millis × Linked.Signal) :=
      [(0, .event (.searchResult 1 [.ofKey "bob", .ofKey "carol"])),
       (1, .event (.agent { bob with body := .propose (Station.proposal { price := 10 }) })),
       (2, .event (.agent { bob with answer := 3, target := 2 })), (3, .event (.agent carol))]
    e.Reachable ∧
    ∃ k ∈ Linked.consults .recorder handler 4 ⟨e, {}⟩ { search := some 1 } [] signals,
      .accept 1 ∈ (handler.react k.memory k.news).1 ∧
      (k.engine.table.get? 1).map (·.state) = some (.closed .declined) := by
  intro e bob carol signals
  exact ⟨.new (show Engine.new (.ofKey "alice") {} 1 = .ok e from rfl), by decide +kernel⟩

/-- Two stations' dialogues time out in one sweep: the offer of one is accepted when the client is told
    of the other, and it is among those that the client was not told of. -/
theorem unreported_offer_accepted :
    let e : Engine := { home := .ofKey "alice", table := .new {} 1 }
    let bob : Message :=
      { answer := 2, dialogue := 2, origin := .ofKey "bob", target := 1
        body := .propose (Station.proposal { price := 10 }) }
    let signals : List (Millis × Linked.Signal) :=
      [(0, .event (.searchResult 1 [.ofKey "carol", .ofKey "bob"])), (1, .event (.agent bob)),
       (300001, .tick)]
    ∃ before k after,
      Linked.consults .recorder handler 4 ⟨e, {}⟩ { search := some 1 } [] signals = before ++ k :: after ∧
      .accept 2 ∈ (handler.react k.memory k.news).1 ∧
      (k.engine.table.get? 2).map (·.state) = some (.closed .timedOut) ∧ ∃ d ∈ k.unreported, d.id = 2 := by
  intro e bob signals
  have hs : e.Reachable := Engine.Reachable.new (show Engine.new (.ofKey "alice") {} 1 = .ok e from rfl)
  obtain ⟨k, hk, ha, hstate, hnews⟩ :
      ∃ k ∈ Linked.consults .recorder handler 4 ⟨e, {}⟩ { search := some 1 } [] signals,
        .accept 2 ∈ (handler.react k.memory k.news).1 ∧
        (k.engine.table.get? 2).map (·.state) = some (.closed .timedOut) ∧
        ∀ k' ∈ Linked.consults .recorder handler 4 ⟨e, {}⟩ { search := some 1 } [] signals,
          k'.news.name ≠ "decline" := by decide +kernel
  obtain ⟨before, after, hsplit⟩ := List.append_of_mem hk
  refine ⟨before, k, after, hsplit, ha, hstate, ?_⟩
  rcases accepted_offer .recorder 4 (s := ⟨e, {}⟩) hs rfl signals hsplit ha with
    ⟨d, hd, hst⟩ | ⟨k', hk', d, hd, -⟩ | hu
  · rw [hd, Option.map_some, hst] at hstate
    cases hstate
  · have hk'' : k' ∈ before ++ k :: after := by
      rcases List.mem_append.1 hk' with h | h
      · exact List.mem_append_left _ h
      · exact List.mem_append_right _ (List.mem_singleton.1 h ▸ List.mem_cons_self)
    exact absurd (by rw [hd]; rfl) (hnews k' (hsplit ▸ hk''))
  · exact hu

end Weather.Client

end Negotiation
