import Negotiation.Proofs.Market.Stages
import Negotiation.Proofs.Network

/-!
How a deal moves on. Each move is one thing that one agent does in one dialogue: it opens it, takes a
message, sends a step or completes. A move that is due succeeds, moves its deal to the next stage and
leaves all others where they are.
-/

namespace Negotiation.Market

variable {p : Plan} {id : StationPlan → DialogueId} {stage : StationPlan → Stage}
  {order : List StationPlan} {s : StationPlan} {t : Stage} {st st' : State} {a : AnswerId}
  {l : Letter} {body : Body} {now : Millis} {x : Exchange} {events : List Event} {ev : Event}

/-- A market whose deals are at the given stages. -/
structure World (p : Plan) (id : StationPlan → DialogueId) (stage : StationPlan → Stage)
    (order : List StationPlan) (client : Engine) (x : Exchange)
    (members : SortedMap String (Member Application)) : Prop where
  calls : Calls p id stage client
  seats : Seats p id stage members
  posts : Posts p id stage order x

/-! ### Moves of a station -/

namespace Seat

variable {i : DialogueId} {t₀ : Stage} {e : Engine} {w w' : Weather.Station}

theorem home_ne (h : Seat p s i t₀ e w) (hv : Viable p) (hs : s ∈ p.stations) : e.home.key ≠ "" :=
  h.home ▸ (hv.keys s hs).1

/-- The memory of a station that sells nothing on a move. -/
theorem same (h : Seat p s i t₀ e w) (hsold : t.sold = t₀.sold) : w = { w with served := t.sold } := by
  rw [hsold, ← h.served]

/-- A station's dialogue moves on. -/
theorem put (h : Seat p s i t₀ e w) {d : Dialogue} (hd : d.Stands e.home p.client i st a)
    (ht : t.station? = some (st, a)) (hw : w' = { w with served := t.sold }) :
    Seat p s i t (e.put d) w' := by
  subst hw
  refine ⟨h.home, h.limits, h.price, h.measurement, rfl, fun hn => ?_, fun st' a' ht' => ?_⟩
  · rw [ht] at hn
    cases hn
  · rw [ht] at ht'
    cases ht'
    exact ⟨d, by rw [Engine.get?_put, if_pos hd.id], hd⟩

/-- A station that has not been called takes the call. -/
theorem takeCall (h : Seat p s i .called e w) (now : Millis) (hv : Viable p) (hs : s ∈ p.stations)
    (hl : Letter.Arrives ⟨1, 0, .cfp (.query Weather.Client.query)⟩ p.client i ev) :
    ∃ d e', d.id = i ∧ e.observe now ev = (.cfp d (.query Weather.Client.query), e', .ok ()) ∧
      Seat p s i .asked e' w := by
  have hsize : e.table.size = 0 := h.fresh rfl
  have hroom : ¬ e.table.isFull := by
    rw [Table.isFull, h.limits, hsize, decide_eq_true_iff, Nat.not_le]
    exact hv.capacity_pos
  obtain ⟨d, hd, hobs⟩ := Engine.observe_call now (h.home_ne hv hs) hv.client
    (SortedMap.get?_eq_none_of_size hsize i) hroom hl rfl (by decide) rfl
  exact ⟨d, _, hd.id, hobs, h.put hd rfl (h.same rfl)⟩

/-- A station takes an answer to its offer. -/
theorem takeAnswer (h : Seat p s i t₀ e w) (now : Millis) (hv : Viable p) (hs : s ∈ p.stations)
    (ht₀ : t₀.station? = some (st, a)) (hl : l.Arrives p.client i ev) (htarget : l.target = a)
    (hlt : a < l.answer) (hnext : st.next? (.receive l.body.step) = some st')
    (ht : t.station? = some (st', l.answer)) (hw : w' = { w with served := t.sold }) :
    ∃ d e', d.id = i ∧ e.observe now ev = (.ofBody d l.body, e', .ok ()) ∧ Seat p s i t e' w' := by
  obtain ⟨d, hd, hst⟩ := h.stands st a ht₀
  obtain ⟨d', hd', -, hobs⟩ :=
    Engine.observe_letter now (h.home_ne hv hs) hd hst hl htarget hlt hnext
  exact ⟨d', _, hd'.id, hobs, h.put hd' ht hw⟩

/-- A station sends a step to the client. -/
theorem reply (h : Seat p s i t₀ e w) (now : Millis) (body : Body) (hv : Viable p) (hs : s ∈ p.stations)
    (ht₀ : t₀.station? = some (st, a)) (hnext : st.next? (.send body.step) = some st')
    (ht : t.station? = some (st', AnswerId.next a)) (hsold : t.sold = t₀.sold) {own : List Event}
    (hown : x.Keeps s.key own) (hbox : x.Keeps p.client events) (hroom : events.length < x.capacity) :
    ∃ ev e', Letter.Arrives ⟨AnswerId.next a, a, body⟩ s.key i ev ∧
      Linked.reply (Exchange.connection s.key) now ⟨e, x⟩ i body =
        (.ok (), ⟨e', x.setMailbox p.client { events := events ++ [ev] }⟩) ∧ Seat p s i t e' w := by
  obtain ⟨d, hd, hst⟩ := h.stands st a ht₀
  obtain ⟨ev, hev, hsend⟩ := Linked.reply_ok (s := ⟨e, x⟩) now h.home (hv.keys s hs).1 hd hst hnext
    hown hbox hroom
  exact ⟨ev, _, hev, hsend, h.put (hst.sent st' now) ht (h.same hsold)⟩

/-- A station completes a deal. -/
theorem complete (h : Seat p s i t₀ e w) (ht₀ : t₀.station? = some (.accepted, a))
    (ht : t.station? = some (.closed .completed, a)) (hsold : t.sold = t₀.sold) (x : Exchange)
    (now : Millis) : ∃ e', Linked.done (Linked.apply now ⟨e, x⟩ i .complete) = (.ok (), ⟨e', x⟩) ∧
      Seat p s i t e' w := by
  obtain ⟨d, hd, hst⟩ := h.stands .accepted a ht₀
  obtain ⟨d', hd', -, hdone⟩ := Linked.complete_ok (s := ⟨e, x⟩) now hd hst
  exact ⟨_, hdone, h.put hd' ht (h.same hsold)⟩

end Seat

/-- An event is taken without a failure, and all actions that follow succeed. -/
structure Goes (m : Market) (now : Millis) (key : String) (m' : Market) : Prop where
  taken : ∃ ev, m.take Application.handler now Application.effort key = some (ev, .ok (), m')
  verdicts : ∀ v ∈ m.verdicts Application.handler now Application.effort key, v = .ok ()

theorem goes_of_succeeds {m : Market} {key : String} {e e' : Engine} {memory memory' : Application}
    {news : Notice} {actions : List Action} {l : Linked Exchange}
    (hm : m.members.get? key = some ⟨e, memory, true⟩) (hx : m.exchange.Keeps key (ev :: events))
    (hobs : e.observe now ev = (news, e', .ok ())) (hreact : memory.react news = (actions, memory'))
    (hl : Linked.Succeeds (Exchange.connection key) now ⟨e', m.exchange.setMailbox key { events }⟩
      actions l) (hb : actions.length ≤ memory.effort ev) : Goes m now key (m.put key l memory') := by
  obtain ⟨htaken, hverdicts⟩ := Network.take_ok (h := Application.handler) hm hx hobs hreact hl hb
  exact ⟨⟨ev, htaken⟩, hverdicts⟩

namespace World

variable {client : Engine} {m : Market}

/-- The member of the client is no concern of a station that goes on. -/
theorem get?_client (hv : Viable p) (hs : s ∈ p.stations) (m : Market) (l : Linked Exchange)
    (memory : Application) : (m.put s.key l memory).members.get? p.client = m.members.get? p.client := by
  rw [Network.put, SortedMap.get?_insert, if_neg (hv.keys s hs).2]

/-- A called station offers. -/
theorem offers (h : World p id stage order client m.exchange m.members) (hv : Viable p)
    (hs : s ∈ p.stations) (ht : stage s = .called) (hkeep : m.exchange.Keeps s.key [ev])
    (hl : Letter.Arrives ⟨1, 0, .cfp (.query Weather.Client.query)⟩ p.client (id s) ev) (now : Millis) :
    ∃ m', Goes m now s.key m' ∧ m'.members.get? p.client = m.members.get? p.client ∧
      World p id (Function.update stage s .offered) (order ++ [s]) client m'.exchange m'.members := by
  obtain ⟨e, w, hm, hseat⟩ := h.seats s hs
  rw [ht] at hseat
  obtain ⟨d, e₁, hid, hobs, hseat₁⟩ := hseat.takeCall now hv hs hl
  obtain ⟨events, hbox, hroom, hposts⟩ := h.posts.turned hv hs (by rw [ht]; rfl)
  obtain ⟨ev', e₂, hev', hsend, hseat₂⟩ := hseat₁.reply (t := .offered) now
    (.propose (Weather.Station.proposal { price := s.price })) hv hs rfl rfl rfl rfl
    (Exchange.keeps_setMailbox ..) hbox hroom
  have hproposal : w.proposal = Weather.Station.proposal { price := s.price } := by
    rw [Weather.Station.proposal, hseat.price]
    rfl
  have hreact : Application.react (.station w) (.cfp d (.query Weather.Client.query)) =
      ([.propose (id s) (Weather.Station.proposal { price := s.price })], .station w) := by
    rw [← hid, ← hproposal]
    rfl
  have hgoes := goes_of_succeeds hm hkeep hobs hreact (.cons hsend (.nil _))
    (by simp [Application.effort])
  exact ⟨_, hgoes, get?_client hv hs m _ _,
    h.calls.congr fun s' _ => view_update _ (by rw [ht]; rfl) s', h.seats.put hv hs hseat₂,
    hposts rfl rfl hev'⟩

/-- A chosen station sends the measurement and completes. -/
theorem serves (h : World p id stage order client m.exchange m.members) (hv : Viable p)
    (hs : s ∈ p.stations) (ht : stage s = .chosen) (hkeep : m.exchange.Keeps s.key [ev])
    (hl : Letter.Arrives ⟨3, 2, .accept⟩ p.client (id s) ev) (now : Millis) :
    ∃ m', Goes m now s.key m' ∧ m'.members.get? p.client = m.members.get? p.client ∧
      World p id (Function.update stage s .served) (order ++ [s]) client m'.exchange m'.members := by
  obtain ⟨e, w, hm, hseat⟩ := h.seats s hs
  rw [ht] at hseat
  obtain ⟨d, e₁, hid, hobs, hseat₁⟩ := hseat.takeAnswer (t := .won) now hv hs rfl hl rfl
    (by decide) rfl rfl rfl
  obtain ⟨events, hbox, hroom, hposts⟩ := h.posts.turned hv hs (by rw [ht]; rfl)
  obtain ⟨ev', e₂, hev', hsend, hseat₂⟩ := hseat₁.reply (t := .delivered) now
    (.message ({} : Weather.Measurement).toBytes) hv hs rfl rfl rfl rfl
    (Exchange.keeps_setMailbox ..) hbox hroom
  obtain ⟨e₃, hdone, hseat₃⟩ := hseat₂.complete (t := .served) rfl rfl rfl _ now
  have hreact : Application.react (.station w) (.accept d) =
      ([.message (id s) ({} : Weather.Measurement).toBytes, .complete (id s)],
        .station { w with served := Stage.won.sold }) := by
    have hserved : w.served = 0 := hseat.served
    rw [← hid, ← hseat.measurement]
    simp only [Application.react, Weather.Station.react, hserved]
    rfl
  have hgoes := goes_of_succeeds hm hkeep hobs hreact (.cons hsend (.cons hdone (.nil _)))
    (by simp [Application.effort])
  exact ⟨_, hgoes, get?_client hv hs m _ _,
    h.calls.congr fun s' _ => view_update _ (by rw [ht]; rfl) s', h.seats.put hv hs hseat₃,
    hposts rfl rfl hev'⟩

/-- A dismissed station takes note. -/
theorem leaves (h : World p id stage order client m.exchange m.members) (hv : Viable p)
    (hs : s ∈ p.stations) (ht : stage s = .dismissed) (hkeep : m.exchange.Keeps s.key [ev])
    (hl : Letter.Arrives ⟨3, 2, .decline⟩ p.client (id s) ev) (now : Millis) :
    ∃ m', Goes m now s.key m' ∧ m'.members.get? p.client = m.members.get? p.client ∧
      World p id (Function.update stage s .refused) order client m'.exchange m'.members := by
  obtain ⟨e, w, hm, hseat⟩ := h.seats s hs
  rw [ht] at hseat
  obtain ⟨d, e₁, hid, hobs, hseat₁⟩ := hseat.takeAnswer (t := .refused) now hv hs rfl hl rfl
    (by decide) rfl rfl (hseat.same rfl)
  have hposts₁ : Posts p id (Function.update stage s .refused) order
      (m.exchange.setMailbox s.key { events := [] }) :=
    h.posts.setStation hv hs (fun _ _ => rfl) (by rw [ht]; rfl) rfl .nil
  have hreact : Application.react (.station w) (.decline d) = ([], .station w) := rfl
  have hgoes := goes_of_succeeds hm hkeep hobs hreact (.nil _) (Nat.zero_le _)
  exact ⟨_, hgoes, get?_client hv hs m _ _,
    h.calls.congr fun s' _ => view_update _ (by rw [ht]; rfl) s', h.seats.put hv hs hseat₁, hposts₁⟩

/-! ### Moves of the client -/

variable {members : SortedMap String (Member Application)} {client' : Engine}

/-- The client calls a station. -/
theorem call (h : World p id stage order client x members) (hv : Viable p) (hs : s ∈ p.stations)
    (ht : stage s = .found) (now : Millis) : ∃ i client' x',
      Linked.execute (Exchange.connection p.client) now ⟨client, x⟩
        (.cfp s.address (.query Weather.Client.query)) = (.ok (), ⟨client', x'⟩) ∧
      World p (Function.update id s i) (Function.update stage s .called) order client' x' members := by
  obtain ⟨own, hown, -⟩ := h.posts.queue
  have hbox : x.Keeps s.key [] := by
    obtain ⟨events, hkeep, hb⟩ := h.posts.boxes s hs
    rw [ht] at hb
    cases hb
    exact hkeep
  have hsize : client.table.size < p.stations.length := by
    rw [h.calls.size]
    exact tally_lt hs (fun t => by cases t <;> decide) (by rw [ht]; rfl)
  have hroom : ¬ client.table.isFull := by
    have := hv.room
    rw [Table.isFull, h.calls.limits, decide_eq_true_iff]
    omega
  have hround : client.table.size < Allocator.round := by
    have := hv.queue
    rw [Exchange.defaultCapacity] at this
    rw [Allocator.round]
    omega
  have hnext : State.idle.next? (.send (Body.cfp (.query Weather.Client.query)).step) =
      some .cfpSent := rfl
  obtain ⟨i, alloc, ev, hi, hev, hopen⟩ := Linked.openDialogue_ok (s := ⟨client, x⟩) now s.address
    h.calls.home hv.client (hv.keys s hs).1 hroom hround hnext hown hbox
    (by rw [h.posts.capacity]; decide)
  refine ⟨i, _, _, by rw [Linked.execute, hopen]; rfl, h.calls.opened hv hs ht hi alloc now, ?_, ?_⟩
  · refine h.seats.congr (fun s' _ => ⟨?_, ?_⟩) fun s' _ hsome => Function.update_of_ne ?_ _ _
    · exact view_update _ (by rw [ht]; rfl) s'
    · exact view_update _ (by rw [ht]; rfl) s'
    · rintro rfl
      rw [ht] at hsome
      cases hsome
  · refine h.posts.setStation hv hs (fun s' hk => Function.update_of_ne hk _ _) (by rw [ht]; rfl) rfl ?_
    rw [Function.update_self]
    exact .cons hev .nil

/-- The client answers an offer that it holds. -/
theorem answer (h : World p id stage order client x members) (hv : Viable p) (hs : s ∈ p.stations)
    (ht : stage s = .held) (hbody : t = .chosen ∧ body = .accept ∨ t = .dismissed ∧ body = .decline)
    (now : Millis) : ∃ client' x',
      Linked.reply (Exchange.connection p.client) now ⟨client, x⟩ (id s) body = (.ok (), ⟨client', x'⟩) ∧
      World p id (Function.update stage s t) order client' x' members := by
  obtain ⟨own, hown, -⟩ := h.posts.queue
  have hbox : x.Keeps s.key [] := by
    obtain ⟨events, hkeep, hb⟩ := h.posts.boxes s hs
    rw [ht] at hb
    cases hb
    exact hkeep
  obtain ⟨d, hd, hst, hp⟩ := h.calls.held s hs .proposalReceived 2 (by rw [ht]; rfl)
  have hnext : ∃ st, State.proposalReceived.next? (.send body.step) = some st ∧
      t.client? = some (st, 3) := by
    rcases hbody with ⟨rfl, rfl⟩ | ⟨rfl, rfl⟩ <;> exact ⟨_, rfl, rfl⟩
  have hletter : t.toStation? = some ⟨3, 2, body⟩ ∧ t.toClient? s.price = none ∧
      t.station? = Stage.held.station? ∧ t.sold = 0 := by
    rcases hbody with ⟨rfl, rfl⟩ | ⟨rfl, rfl⟩ <;> exact ⟨rfl, rfl, rfl, rfl⟩
  obtain ⟨st, hnext, hclient⟩ := hnext
  obtain ⟨hto, hfrom, hstation, hsold⟩ := hletter
  obtain ⟨ev, hev, hsend⟩ := Linked.reply_ok (s := ⟨client, x⟩) now h.calls.home hv.client hd hst
    hnext hown hbox (by rw [h.posts.capacity]; decide)
  refine ⟨_, _, hsend, h.calls.put hv hs (by rw [ht]; rfl) hclient (hst.sent st now) hp, ?_, ?_⟩
  · refine h.seats.congr (fun s' _ => ⟨?_, ?_⟩) fun _ _ _ => rfl
    · exact view_update _ (by rw [ht, hstation]) s'
    · exact view_update _ (by rw [ht, hsold]; rfl) s'
  · refine h.posts.setStation hv hs (fun _ _ => rfl) (by rw [ht]; rfl) hfrom ?_
    rw [hto]
    exact .cons hev .nil

/-- The client takes the first message that waits for it. -/
theorem read (h : World p id stage (s :: order) client x members) (hv : Viable p)
    (hkeep : x.Keeps p.client (ev :: events))
    (ht : stage s = .offered ∧ t = .held ∨ stage s = .served ∧ t = .received) (now : Millis) :
    ∃ l d client', (stage s).toClient? s.price = some l ∧ (∃ m, ev = .agent m) ∧ d.id = id s ∧
      d.counterparty = s.address ∧ client.observe now ev = (.ofBody d l.body, client', .ok ()) ∧
      World p id (Function.update stage s t) order client' (x.setMailbox p.client { events })
        members := by
  have hs : s ∈ p.stations := h.posts.known s List.mem_cons_self
  have hhome : client.home.key ≠ "" := h.calls.home ▸ hv.client
  obtain ⟨l, hl, harrives⟩ : Waits id stage s ev := by
    obtain ⟨events', hkeep', hq⟩ := h.posts.queue
    obtain rfl := hkeep.eq hkeep'
    cases hq with
    | cons hw _ => exact hw
  -- the message fits where the client stands
  have hfits : ∃ st a st', (stage s).client? = some (st, a) ∧ l.target = a ∧ a < l.answer ∧
      st.next? (.receive l.body.step) = some st' ∧ t.client? = some (st', l.answer) := by
    rcases ht with ⟨ht, rfl⟩ | ⟨ht, rfl⟩ <;> rw [ht] at hl ⊢ <;> cases hl
    · exact ⟨_, _, _, rfl, rfl, show (1 : AnswerId) < 2 by decide, rfl, rfl⟩
    · exact ⟨_, _, _, rfl, rfl, show (3 : AnswerId) < 4 by decide, rfl, rfl⟩
  have hviews : t.toClient? s.price = none ∧ t.toStation? = (stage s).toStation? ∧
      t.station? = (stage s).station? ∧ t.sold = (stage s).sold := by
    rcases ht with ⟨ht, rfl⟩ | ⟨ht, rfl⟩ <;> rw [ht] <;> exact ⟨rfl, rfl, rfl, rfl⟩
  obtain ⟨st, a, st', hst, htarget, hlt, hnext, hclient⟩ := hfits
  obtain ⟨hfrom, hto, hstation, hsold⟩ := hviews
  obtain ⟨d, hd, hstands, hp⟩ := h.calls.held s hs st a hst
  obtain ⟨d', hd', hp', hobs⟩ :=
    Engine.observe_letter now hhome hd hstands harrives htarget hlt hnext
  have hev : ∃ m, ev = .agent m := harrives.imp fun _ h => h.1
  exact ⟨l, d', _, hl, hev, hd'.id, hp'.trans hp, hobs,
    h.calls.put hv hs (hst ▸ rfl) hclient hd' (hp'.trans hp),
    h.seats.congr (fun s' _ => ⟨view_update _ hstation s', view_update _ hsold s'⟩) fun _ _ _ => rfl,
    h.posts.read hv hfrom hto hkeep⟩

/-- The client completes the deal. -/
theorem buy (h : World p id stage order client x members) (hv : Viable p) (hs : s ∈ p.stations)
    (ht : stage s = .received) (now : Millis) : ∃ client',
      Linked.done (Linked.apply now ⟨client, x⟩ (id s) .complete) = (.ok (), ⟨client', x⟩) ∧
      World p id (Function.update stage s .bought) order client' x members := by
  obtain ⟨d, hd, hst, hp⟩ := h.calls.held s hs .accepted 4 (by rw [ht]; rfl)
  obtain ⟨d', hd', hp', hdone⟩ := Linked.complete_ok (s := ⟨client, x⟩) now hd hst
  refine ⟨_, hdone, h.calls.put hv hs (by rw [ht]; rfl) rfl hd' (hp'.trans hp), ?_, ?_⟩
  · refine h.seats.congr (fun s' _ => ⟨?_, ?_⟩) fun _ _ _ => rfl
    · exact view_update _ (by rw [ht]; rfl) s'
    · exact view_update _ (by rw [ht]; rfl) s'
  · refine h.posts.congr fun s' _ => ⟨view_update _ (by rw [ht]; rfl) s', ?_⟩
    exact view_update (Stage.toClient? s'.price) (by rw [ht]; rfl) s'

end World

end Negotiation.Market
