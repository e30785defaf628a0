import Negotiation.Proofs.Market.Deciding

/-!
A market under way. First the client's search result waits; then the client collects offers until it
holds one of every station; then one station is chosen and all others are dismissed. Main statement
(`Underway.step`): an agent for which an event waits takes it without a failure, all actions succeed,
and one event less is left.
-/

namespace Negotiation.Market

open Weather (Client Offer Purchase)

variable {p : Plan} {id : StationPlan → DialogueId} {stage : StationPlan → Stage}
  {order : List StationPlan} {s w : StationPlan} {now : Millis} {x : Exchange} {client : Engine}
  {members : SortedMap String (Member Application)} {c : Client}

/-- The events that are left of a deal. -/
def Stage.left : Stage → Nat
  | .called => 3
  | .offered => 2
  | .chosen => 2
  | .held => 1
  | .dismissed => 1
  | .served => 1
  | _ => 0

namespace World

/-- Actions that each move one deal on from the same stage all succeed. -/
theorem move_all (now : Millis) (act : DialogueId → StationPlan → Action) (t₀ t : Stage)
    (move : ∀ {id stage client x s}, s ∈ p.stations → stage s = t₀ →
      World p id stage order client x members → ∃ id' client' x', (∀ s', s' ≠ s → id' s' = id s') ∧
        Linked.execute (Exchange.connection p.client) now ⟨client, x⟩ (act (id s) s) =
          (.ok (), ⟨client', x'⟩) ∧ World p id' (Function.update stage s t) order client' x' members)
    {l : List StationPlan} (hl : l.Nodup) (hsub : ∀ s ∈ l, s ∈ p.stations)
    {id : StationPlan → DialogueId} {stage : StationPlan → Stage} {client : Engine} {x : Exchange}
    (hstage : ∀ s ∈ l, stage s = t₀) (h : World p id stage order client x members) :
    ∃ id' client' x', (∀ s, s ∉ l → id' s = id s) ∧
      Linked.Succeeds (Exchange.connection p.client) now ⟨client, x⟩ (l.map fun s => act (id s) s)
        ⟨client', x'⟩ ∧
      World p id' (fun s => if s ∈ l then t else stage s) order client' x' members := by
  induction l generalizing id stage client x with
  | nil => exact ⟨id, client, x, fun _ _ => rfl, .nil _, by simpa using h⟩
  | cons s l ih =>
    obtain ⟨hs, hl⟩ := List.nodup_cons.1 hl
    rw [List.forall_mem_cons] at hsub hstage
    obtain ⟨id₁, client₁, x₁, hid₁, hmove, h₁⟩ := move hsub.1 hstage.1 h
    have hne : ∀ s' ∈ l, s' ≠ s := by
      rintro s' hs' rfl
      exact hs hs'
    have hstage₁ : ∀ s' ∈ l, Function.update stage s t s' = t₀ := fun s' hs' => by
      rw [Function.update_of_ne (hne s' hs')]
      exact hstage.2 s' hs'
    obtain ⟨id', client', x', hid', hrest, h'⟩ := ih hl hsub.2 hstage₁ h₁
    refine ⟨id', client', x', fun s' hs' => ?_, ?_, ?_⟩
    · rw [List.mem_cons, not_or] at hs'
      rw [hid' s' hs'.2, hid₁ s' hs'.1]
    · rw [List.map_congr_left fun s' hs' => by rw [hid₁ s' (hne s' hs')]] at hrest
      exact .cons hmove hrest
    · convert h' using 2 with s'
      by_cases hk : s' = s
      · simp [hk]
      · simp [hk]

/-- The client calls all stations. -/
theorem call_all (hv : Viable p) (now : Millis) {l : List StationPlan} (hl : l.Perm p.stations)
    (h : World p id (fun _ => .found) order client x members) : ∃ id' client' x',
      Linked.Succeeds (Exchange.connection p.client) now ⟨client, x⟩
        (l.map fun s => .cfp s.address (.query Client.query)) ⟨client', x'⟩ ∧
      World p id' (fun s => if s ∈ l then .called else .found) order client' x' members := by
  have hnodup : l.Nodup := hl.nodup_iff.2 hv.nodup.of_map
  obtain ⟨id', client', x', -, h'⟩ := move_all now (fun _ s => .cfp s.address (.query Client.query))
    .found .called (fun hs ht hw => by
      obtain ⟨i, client', x', hcall, hw'⟩ := hw.call hv hs ht now
      exact ⟨_, client', x', fun s' hk => Function.update_of_ne hk _ _, hcall, hw'⟩)
    hnodup (fun _ hs => hl.subset hs) (fun _ _ => rfl) h
  exact ⟨id', client', x', h'⟩

/-- The client declines some offers that it holds. -/
theorem decline_all (hv : Viable p) (now : Millis) {l : List StationPlan} (hl : l.Nodup)
    (hsub : ∀ s ∈ l, s ∈ p.stations) (hheld : ∀ s ∈ l, stage s = .held)
    (h : World p id stage order client x members) : ∃ id' client' x', (∀ s, s ∉ l → id' s = id s) ∧
      Linked.Succeeds (Exchange.connection p.client) now ⟨client, x⟩ (l.map fun s => .decline (id s))
        ⟨client', x'⟩ ∧
      World p id' (fun s => if s ∈ l then .dismissed else stage s) order client' x' members :=
  move_all now (fun i _ => .decline i) .held .dismissed (fun hs ht hw => by
      obtain ⟨client', x', hdecline, hw'⟩ := hw.answer hv hs ht (.inr ⟨rfl, rfl⟩) now
      exact ⟨_, client', x', fun _ _ => rfl, hdecline, hw'⟩)
    hl hsub hheld h

end World

/-! ### The way of a market -/

/-- A market under way, with the number of events that are left. -/
inductive Underway (p : Plan) : Nat → Market → Prop
  /-- The client's search result waits. -/
  | ready {m : Market} {id : StationPlan → DialogueId} {client : Engine} {l : List StationPlan}
      (hm : m.members.get? p.client = some ⟨client, .client (Client.expect {} 1), true⟩)
      (hl : l.Perm p.stations)
      (hkeep : m.exchange.Keeps p.client [.searchResult 1 (l.map StationPlan.address)])
      (hworld : World p id (fun _ => .found) [] client
        (m.exchange.setMailbox p.client { events := [] }) m.members) :
      Underway p (p.stations.length * 3 + 2) m
  /-- The client waits for offers. -/
  | deciding {m : Market} {id : StationPlan → DialogueId} {stage : StationPlan → Stage}
      {order : List StationPlan} {client : Engine} {c : Client}
      (hm : m.members.get? p.client = some ⟨client, .client c, true⟩)
      (hworld : World p id stage order client m.exchange m.members) (hc : Deciding p id stage c)
      (hpos : 0 < c.outstanding) : Underway p (tally p Stage.left stage + 1) m
  /-- The client has decided. -/
  | decided {m : Market} {id : StationPlan → DialogueId} {stage : StationPlan → Stage}
      {order : List StationPlan} {client : Engine} {c : Client} {w : StationPlan}
      (hm : m.members.get? p.client = some ⟨client, .client c, true⟩)
      (hworld : World p id stage order client m.exchange m.members) (hc : Decided p id stage w c) :
      Underway p (tally p Stage.left stage) m

theorem World.put_client (h : World p id stage order client x members) (hv : Viable p)
    (m : Member Application) : World p id stage order client x (members.insert p.client m) :=
  ⟨h.calls, h.seats.put_client hv m, h.posts⟩

theorem get?_put_self (m : Market) (key : String) (l : Linked Exchange) (memory : Application) :
    (m.put key l memory).members.get? key = some ⟨l.engine, memory, true⟩ := by
  rw [Network.put, SortedMap.get?_insert, if_pos rfl]

/-- The client calls what it has found. -/
theorem ready_step {m : Market} {l : List StationPlan} (hv : Viable p)
    (hm : m.members.get? p.client = some ⟨client, .client (Client.expect {} 1), true⟩)
    (hl : l.Perm p.stations)
    (hkeep : m.exchange.Keeps p.client [.searchResult 1 (l.map StationPlan.address)])
    (h : World p id (fun _ => .found) [] client (m.exchange.setMailbox p.client { events := [] })
      m.members) (now : Millis) :
    ∃ m', Goes m now p.client m' ∧ Underway p (p.stations.length * 3 + 1) m' := by
  obtain ⟨id', client', x', hactions, h'⟩ := h.call_all hv now hl
  have hreact : Application.react (.client (Client.expect {} 1))
      (.searchResult 1 (l.map StationPlan.address)) =
      (l.map fun s => .cfp s.address (.query Client.query),
        .client { search := some 1, outstanding := l.length }) := by
    simp [Application.react, Client.react, Client.expect, Function.comp_def]
  refine ⟨_, goes_of_succeeds hm hkeep rfl hreact hactions (by simp [Application.effort]), ?_⟩
  have hcalled : ∀ s ∈ p.stations, (if s ∈ l then Stage.called else .found) = .called := fun s hs =>
    if_pos (hl.symm.subset hs)
  have hleft : tally p Stage.left (fun s => if s ∈ l then .called else .found) =
      p.stations.length * 3 :=
    tally_const fun s hs => by rw [hcalled s hs]; rfl
  rw [← hleft]
  refine .deciding (get?_put_self ..) (h'.put_client hv _)
    ⟨fun s hs => .inl (hcalled s hs), ?_, rfl, rfl, ?_, fun _ => rfl⟩ ?_
  · rw [tally_const (n := 1) fun s hs => by rw [hcalled s hs]; rfl, Nat.mul_one]
    exact hl.length_eq
  · refine fun i o => iff_of_false (by simp [SortedMap.get?_empty]) ?_
    rintro ⟨s, hs, hheld, -⟩
    rw [hcalled s hs] at hheld
    cases hheld
  · exact Nat.lt_of_lt_of_eq (List.length_pos_iff.2 hv.nonempty) hl.length_eq.symm

/-- The client decides behind the last offer. -/
theorem decide_step {m : Market} {news : Notice} {ev : Event} {events : List Event} {client₀ : Engine}
    {c₀ c : Client} (hv : Viable p) (hm : m.members.get? p.client = some ⟨client₀, .client c₀, true⟩)
    (hkeep : m.exchange.Keeps p.client (ev :: events))
    (hobs : client₀.observe now ev = (news, client, .ok ())) (hreact : c₀.react news = c.conclude)
    (heffort : p.stations.length ≤ Application.effort (.client c₀) ev)
    (h : World p id stage order client (m.exchange.setMailbox p.client { events }) m.members)
    (hc : Deciding p id stage c) (h0 : c.outstanding = 0) :
    ∃ m', Goes m now p.client m' ∧ Underway p (p.stations.length + 1) m' := by
  obtain ⟨w, l, hperm, hcheap, hsize, hconclude⟩ := hc.conclude_eq h.calls hv h0
  obtain ⟨hwl, hl⟩ := List.nodup_cons.1 (hperm.nodup_iff.2 hv.nodup.of_map)
  have hw : w ∈ p.stations := hperm.subset List.mem_cons_self
  have hsub : ∀ s ∈ l, s ∈ p.stations := fun s hs => hperm.subset (List.mem_cons_of_mem _ hs)
  have hne : ∀ s ∈ l, s ≠ w := by
    rintro s hs rfl
    exact hwl hs
  obtain ⟨client₁, x₁, haccept, h₁⟩ := h.answer hv hw (hc.all_held h0 hw) (.inl ⟨rfl, rfl⟩) now
  have hheld : ∀ s ∈ l, Function.update stage w .chosen s = .held := fun s hs => by
    rw [Function.update_of_ne (hne s hs)]
    exact hc.all_held h0 (hsub s hs)
  obtain ⟨id', client₂, x₂, hid', hdeclines, h₂⟩ := h₁.decline_all hv now hl hsub hheld
  have hactions : Application.react (.client c₀) news =
      (.accept (id w) :: l.map fun s => .decline (id s),
        .client { c with accepted := some (id w, ⟨w.address, w.price⟩) }) := by
    rw [Application.react, hreact, hconclude]
  have hlength : (Action.accept (id w) :: l.map fun s => Action.decline (id s)).length =
      p.stations.length := by
    rw [← hperm.length_eq, List.length_cons, List.length_map, List.length_cons]
  refine ⟨_, goes_of_succeeds hm hkeep hobs hactions (.cons haccept hdeclines) (hlength ▸ heffort), ?_⟩
  -- one deal is chosen and the others are dismissed
  have hchosen : (if w ∈ l then Stage.dismissed else Function.update stage w .chosen w) = .chosen := by
    rw [if_neg hwl, Function.update_self]
  have hdismissed : ∀ s ∈ l,
      (if s ∈ l then Stage.dismissed else Function.update stage w .chosen s) = .dismissed :=
    fun s hs => if_pos hs
  have hleft : tally p Stage.left
      (fun s => if s ∈ l then .dismissed else Function.update stage w .chosen s) =
      p.stations.length + 1 := by
    rw [tally_cons hperm (n := 1) fun s hs => by rw [hdismissed s hs]; rfl, hchosen]
    change 2 + (p.stations.length - 1) * 1 = _
    have hpos := List.length_pos_iff.2 hv.nonempty
    omega
  rw [← hleft]
  refine .decided (w := w) (get?_put_self ..) (h₂.put_client hv _)
    ⟨hw, hcheap, .inl hchosen, fun s hs hsw => ?_, ?_, hsize, ?_⟩
  · have hsl : s ∈ l := (List.mem_cons.1 (hperm.symm.subset hs)).resolve_left hsw
    exact .inl (hdismissed s hsl)
  · rw [hid' w hwl]
  · rw [hchosen]
    exact hc.purchase

/-- The client hears an offer. -/
theorem hear_step {m : Market} (hv : Viable p)
    (hm : m.members.get? p.client = some ⟨client, .client c, true⟩)
    (h : World p id stage order client m.exchange m.members) (hc : Deciding p id stage c)
    (hw : m.exchange.waiting p.client ≠ []) (now : Millis) :
    ∃ m', Goes m now p.client m' ∧ Underway p (tally p Stage.left stage) m' := by
  obtain ⟨events, hkeep, hq⟩ := h.posts.queue
  rw [Exchange.waiting_of_keeps hkeep] at hw
  cases hq with
  | nil => exact absurd rfl hw
  | @cons s ev order events hwaits hq =>
    have hs : s ∈ p.stations := h.posts.known s List.mem_cons_self
    obtain ⟨l, hl, -⟩ := hwaits
    have ht : stage s = .offered := hc.offered_of_toClient? hs hl
    obtain ⟨l', d, client', hl', ⟨msg, rfl⟩, hid, hpeer, hobs, h'⟩ :=
      h.read hv hkeep (.inl ⟨ht, rfl⟩) now
    rw [ht] at hl'
    obtain rfl := Option.some.inj hl'
    have hnone := hc.get?_eq_none h.calls hv hs ht
    have hhear := hc.hear h.calls hv hs ht
    have hreact := hc.react_propose (hid ▸ hnone) s.price
    rw [hid, hpeer] at hreact
    have hleft := tally_update hv hs Stage.left stage .held
    rw [ht] at hleft
    change _ + 2 = _ + 1 at hleft
    by_cases h0 : (c.hearing (id s) ⟨s.address, s.price⟩).outstanding = 0
    · -- it was the last one
      have hall : tally p Stage.left (Function.update stage s .held) = p.stations.length * 1 :=
        tally_const fun s' hs' => by rw [hhear.all_held h0 hs']; rfl
      have heffort : p.stations.length ≤ Application.effort (.client c) (.agent msg) := by
        obtain ⟨-, -, -, -, hsize, -⟩ := hhear.conclude_eq h'.calls hv h0
        have hinsert := SortedMap.size_insert_of_none (⟨s.address, s.price⟩ : Offer) hnone
        change (c.offers.insert (id s) ⟨s.address, s.price⟩).size = _ at hsize
        change _ ≤ c.offers.size + 2
        omega
      obtain ⟨m', hgoes, hm'⟩ := decide_step hv hm hkeep hobs hreact heffort h' hhear h0
      refine ⟨m', hgoes, ?_⟩
      rwa [show tally p Stage.left stage = p.stations.length + 1 by omega]
    · have hpos' := Nat.pos_of_ne_zero h0
      have hactions : Application.react (.client c)
          (.propose d (Weather.Station.proposal { price := s.price })) =
          ([], .client (c.hearing (id s) ⟨s.address, s.price⟩)) := by
        rw [Application.react, hreact, Client.conclude_of_outstanding hpos']
      refine ⟨_, goes_of_succeeds hm hkeep hobs hactions (.nil _) (Nat.zero_le _), ?_⟩
      rw [show tally p Stage.left stage = tally p Stage.left (Function.update stage s .held) + 1
        by omega]
      exact .deciding (get?_put_self ..) (h'.put_client hv _) hhear hpos'

/-- The client takes the measurement and completes. -/
theorem buy_step {m : Market} (hv : Viable p)
    (hm : m.members.get? p.client = some ⟨client, .client c, true⟩)
    (h : World p id stage order client m.exchange m.members) (hc : Decided p id stage w c)
    (hw : m.exchange.waiting p.client ≠ []) (now : Millis) :
    ∃ m' k, Goes m now p.client m' ∧ tally p Stage.left stage = k + 1 ∧ Underway p k m' ∧
      c.purchase = none := by
  obtain ⟨events, hkeep, hq⟩ := h.posts.queue
  rw [Exchange.waiting_of_keeps hkeep] at hw
  cases hq with
  | nil => exact absurd rfl hw
  | @cons s ev order events hwaits hq =>
    have hs : s ∈ p.stations := h.posts.known s List.mem_cons_self
    obtain ⟨l, hl, -⟩ := hwaits
    obtain ⟨rfl, ht⟩ := hc.of_toClient? hs hl
    obtain ⟨l', d, client₁, hl', ⟨msg, rfl⟩, hid, hpeer, hobs, h₁⟩ :=
      h.read hv hkeep (.inr ⟨ht, rfl⟩) now
    rw [ht] at hl'
    obtain rfl := Option.some.inj hl'
    obtain ⟨client₂, hdone, h₂⟩ := h₁.buy hv hs (Function.update_self ..) now
    rw [Function.update_idem] at h₂
    have hnone : c.purchase = none := by
      rw [hc.purchase, ht]
      rfl
    have hreact : c.react (.message d ({} : Weather.Measurement).toBytes) =
        ([.complete (id s)], { c with purchase := some (bargain p s) }) := by
      rw [Client.react, Client.onMessage, hc.accepted]
      simp only [hid, ne_eq, not_true_eq_false, if_false, Weather.Measurement.ofBytes?_toBytes,
        hc.offers, hnone]
      rfl
    have hactions : Application.react (.client c) (.message d ({} : Weather.Measurement).toBytes) =
        ([.complete (id s)], .client { c with purchase := some (bargain p s) }) := by
      rw [Application.react, hreact]
    have hgoes := goes_of_succeeds hm hkeep hobs hactions (.cons hdone (.nil _))
      (by simp [Application.effort])
    have hleft := tally_update hv hs Stage.left stage .bought
    rw [ht] at hleft
    refine ⟨_, _, hgoes, hleft.symm, ?_, hnone⟩
    refine .decided (w := s) (get?_put_self ..) (h₂.put_client hv _)
      ⟨hs, hc.cheapest, .inr (.inr (Function.update_self ..)), fun s' hs' hne => ?_, hc.accepted,
        hc.offers, ?_⟩
    · rw [Function.update_of_ne hne]
      exact hc.others s' hs' hne
    · rw [Function.update_self, if_pos rfl]

/-- A station takes what waits for it. -/
theorem station_step {m : Market} {k : Nat} (hv : Viable p) (h : Underway p k m) (hs : s ∈ p.stations)
    (hw : m.exchange.waiting s.key ≠ []) (now : Millis) : ∃ m' k', Goes m now s.key m' ∧ k = k' + 1 ∧
      Underway p k' m' ∧ m'.members.get? p.client = m.members.get? p.client := by
  cases h with
  | @ready _ id client l hm hl hkeep hworld =>
    -- before the calls nothing is on its way to a station
    have hwait : m.exchange.waiting s.key =
        (m.exchange.setMailbox p.client { events := [] }).waiting s.key := by
      rw [Exchange.waiting, Exchange.waiting, Exchange.get?_setMailbox,
        if_neg (Ne.symm (hv.keys s hs).2)]
    obtain ⟨l, -, hnone, -⟩ := hworld.posts.letter_of_waiting hs (hwait ▸ hw)
    cases hnone
  | @deciding _ id stage order client c hm hworld hc hpos =>
    obtain ⟨l, ev, hl, hkeep, harrives⟩ := hworld.posts.letter_of_waiting hs hw
    have ht : stage s = .called := hc.called_of_toStation? hs hl
    rw [ht] at hl
    obtain rfl := Option.some.inj hl
    obtain ⟨m', hgoes, hclient, hworld'⟩ := hworld.offers hv hs ht hkeep harrives now
    have hleft := tally_update hv hs Stage.left stage .offered
    rw [ht] at hleft
    change _ + 3 = _ + 2 at hleft
    refine ⟨m', _, hgoes, ?_, .deciding (hclient.trans hm) hworld' (hc.offered ht) hpos, hclient⟩
    omega
  | @decided _ id stage order client c w hm hworld hc =>
    obtain ⟨l, ev, hl, hkeep, harrives⟩ := hworld.posts.letter_of_waiting hs hw
    rcases hc.of_toStation? hs hl with ⟨rfl, ht⟩ | ⟨hsw, ht⟩ <;> rw [ht] at hl <;>
      obtain rfl := Option.some.inj hl
    · obtain ⟨m', hgoes, hclient, hworld'⟩ := hworld.serves hv hs ht hkeep harrives now
      have hleft := tally_update hv hs Stage.left stage .served
      rw [ht] at hleft
      exact ⟨m', _, hgoes, Nat.add_right_cancel hleft.symm,
        .decided (hclient.trans hm) hworld' (hc.served ht), hclient⟩
    · obtain ⟨m', hgoes, hclient, hworld'⟩ := hworld.leaves hv hs ht hkeep harrives now
      have hleft := tally_update hv hs Stage.left stage .refused
      rw [ht] at hleft
      exact ⟨m', _, hgoes, hleft.symm, .decided (hclient.trans hm) hworld' (hc.refused hsw), hclient⟩

namespace Underway

variable {m : Market} {k : Nat} {key : String}

/-- Only the client and the stations have mailboxes. -/
theorem known (h : Underway p k m) (hw : m.exchange.waiting key ≠ []) :
    key = p.client ∨ ∃ s ∈ p.stations, s.key = key := by
  by_contra hno
  simp only [not_or, not_exists, not_and] at hno
  obtain ⟨hc, hs⟩ := hno
  have hnone : m.exchange.mailboxes.get? key = none := by
    cases h with
    | ready hm hl hkeep hworld =>
      have hstranger := hworld.posts.strangers key hc hs
      rwa [Exchange.get?_setMailbox, if_neg (Ne.symm hc)] at hstranger
    | deciding hm hworld hc' hpos => exact hworld.posts.strangers key hc hs
    | decided hm hworld hc' => exact hworld.posts.strangers key hc hs
  rw [Exchange.waiting, hnone] at hw
  exact hw rfl

/-- The client takes what waits for it. -/
theorem client_step (hv : Viable p) (h : Underway p k m) (hw : m.exchange.waiting p.client ≠ [])
    (now : Millis) : ∃ m' k', Goes m now p.client m' ∧ k = k' + 1 ∧ Underway p k' m' ∧
      m.purchase? p.client = none := by
  cases h with
  | ready hm hl hkeep hworld =>
    obtain ⟨m', hgoes, hm'⟩ := ready_step hv hm hl hkeep hworld now
    exact ⟨m', _, hgoes, rfl, hm', by rw [purchase?, hm]; rfl⟩
  | deciding hm hworld hc hpos =>
    obtain ⟨m', hgoes, hm'⟩ := hear_step hv hm hworld hc hw now
    exact ⟨m', _, hgoes, rfl, hm', by rw [purchase?, hm]; exact hc.purchase⟩
  | decided hm hworld hc =>
    obtain ⟨m', k', hgoes, hk, hm', hnone⟩ := buy_step hv hm hworld hc hw now
    exact ⟨m', k', hgoes, hk, hm', by rw [purchase?, hm]; exact hnone⟩

/-- An agent for which an event waits takes it, and what the client has bought stays. -/
theorem step (hv : Viable p) (h : Underway p k m) (hw : m.exchange.waiting key ≠ []) (now : Millis) :
    ∃ m' k', Goes m now key m' ∧ k = k' + 1 ∧ Underway p k' m' ∧
      ∀ b, m.purchase? p.client = some b → m'.purchase? p.client = some b := by
  obtain rfl | ⟨s, hs, rfl⟩ := h.known hw
  · obtain ⟨m', k', hgoes, hk, hm', hnone⟩ := h.client_step hv hw now
    refine ⟨m', k', hgoes, hk, hm', fun b hb => ?_⟩
    rw [hnone] at hb
    cases hb
  · obtain ⟨m', k', hgoes, hk, hm', hclient⟩ := station_step hv h hs hw now
    refine ⟨m', k', hgoes, hk, hm', fun b hb => ?_⟩
    rw [purchase?] at hb ⊢
    rwa [hclient]

/-- When nothing waits the client has bought from a cheapest station, which has sold once. -/
theorem finished (h : Underway p k m) (hw : ∀ key, m.exchange.waiting key = []) :
    ∃ w ∈ p.stations, (∀ s ∈ p.stations, w.price ≤ s.price) ∧
      m.purchase? p.client = some (bargain p w) ∧
      ∃ e station, m.members.get? w.key = some ⟨e, .station station, true⟩ ∧
        station.measurement = {} ∧ station.served = 1 := by
  cases h with
  | ready hm hl hkeep hworld =>
    have hwait := hw p.client
    rw [Exchange.waiting_of_keeps hkeep] at hwait
    cases hwait
  | @deciding _ id stage order client c hm hworld hc hpos =>
    -- what a station has on its way would wait
    exact absurd (hc.outstanding_eq_zero (hworld.posts.nothing hw)) (Nat.ne_of_gt hpos)
  | @decided _ id stage order client c w hm hworld hc =>
    have ht : stage w = .bought := hc.bought (hworld.posts.nothing hw w hc.mem)
    obtain ⟨e, station, hstation, hseat⟩ := hworld.seats w hc.mem
    refine ⟨w, hc.mem, hc.cheapest, ?_, e, station, hstation, hseat.measurement, ?_⟩
    · rw [purchase?, hm]
      exact hc.purchase.trans (if_pos ht)
    · rw [hseat.served, ht]
      rfl

end Underway

end Negotiation.Market
