import Negotiation.Proofs.Market.Moves
import Negotiation.Proofs.Weather.Choice

/-!
The memory of the client of a market. While the client waits for offers it holds those that it has
heard; once it has heard all stations, it accepts a cheapest offer and declines the others.
-/

namespace Negotiation

namespace Weather.Client

/-- The client that has heard an offer for the first time. -/
def hearing (c : Client) (i : DialogueId) (o : Offer) : Client :=
  { c with offers := c.offers.insert i o, answered := c.answered.insert i ()
           outstanding := c.outstanding - 1 }

theorem onPropose_eq {c : Client} {d : Dialogue} {q : Proposal} {price : Int64}
    (hprice : priceOf q = some price) (haccepted : c.accepted = none)
    (hnew : c.answered.contains d.id = false) :
    c.onPropose d q = (c.hearing d.id ⟨d.counterparty, price⟩).conclude := by
  simp only [onPropose, hearing, hprice, haccepted, settle, hnew, Bool.false_eq_true, if_false]

theorem conclude_of_outstanding {c : Client} (h : 0 < c.outstanding) : c.conclude = ([], c) := by
  rw [conclude, if_pos (.inr h)]

end Weather.Client

namespace Market

open Weather (Client Offer Purchase)

variable {p : Plan} {id : StationPlan → DialogueId} {stage : StationPlan → Stage} {s w : StationPlan}
  {client : Engine} {c : Client}

/-- Whether a station that was called has not been heard. -/
def Stage.unheard : Stage → Nat
  | .called | .offered => 1
  | _ => 0

/-- The client holds the offers that it has heard and waits for the others. -/
structure Deciding (p : Plan) (id : StationPlan → DialogueId) (stage : StationPlan → Stage)
    (c : Client) : Prop where
  stages : ∀ s ∈ p.stations, stage s = .called ∨ stage s = .offered ∨ stage s = .held
  outstanding : c.outstanding = tally p Stage.unheard stage
  accepted : c.accepted = none
  purchase : c.purchase = none
  offers : ∀ i o, c.offers.get? i = some o ↔
    ∃ s ∈ p.stations, stage s = .held ∧ id s = i ∧ o = ⟨s.address, s.price⟩
  answered : ∀ i, c.answered.contains i = c.offers.contains i

/-- What the client buys from a station. -/
def bargain (p : Plan) (w : StationPlan) : Purchase := ⟨w.address.text, w.price, p.stations.length, {}⟩

/-- The client has chosen a cheapest station and dismissed the others. -/
structure Decided (p : Plan) (id : StationPlan → DialogueId) (stage : StationPlan → Stage)
    (w : StationPlan) (c : Client) : Prop where
  mem : w ∈ p.stations
  cheapest : ∀ s ∈ p.stations, w.price ≤ s.price
  winner : stage w = .chosen ∨ stage w = .served ∨ stage w = .bought
  others : ∀ s ∈ p.stations, s ≠ w → stage s = .dismissed ∨ stage s = .refused
  accepted : c.accepted = some (id w, ⟨w.address, w.price⟩)
  offers : c.offers.size = p.stations.length
  purchase : c.purchase = if stage w = .bought then some (bargain p w) else none

namespace Deciding

theorem client?_isSome (h : Deciding p id stage c) (hs : s ∈ p.stations) :
    (stage s).client?.isSome := by
  rcases h.stages s hs with hst | hst | hst <;> rw [hst] <;> rfl

/-- What is on its way to a station is a call. -/
theorem called_of_toStation? (h : Deciding p id stage c) (hs : s ∈ p.stations) {l : Letter}
    (hl : (stage s).toStation? = some l) : stage s = .called := by
  rcases h.stages s hs with hst | hst | hst
  · exact hst
  · rw [hst] at hl
    cases hl
  · rw [hst] at hl
    cases hl

/-- What is on its way to the client is an offer. -/
theorem offered_of_toClient? (h : Deciding p id stage c) (hs : s ∈ p.stations) {l : Letter}
    (hl : (stage s).toClient? s.price = some l) : stage s = .offered := by
  rcases h.stages s hs with hst | hst | hst
  · rw [hst] at hl
    cases hl
  · exact hst
  · rw [hst] at hl
    cases hl

/-- An offer that is on its way has not been heard. -/
theorem get?_eq_none (h : Deciding p id stage c) (hcalls : Calls p id stage client) (hv : Viable p)
    (hs : s ∈ p.stations) (ht : stage s = .offered) : c.offers.get? (id s) = none := by
  refine Option.eq_none_iff_forall_ne_some.2 fun o ho => ?_
  obtain ⟨s', hs', hheld, hid, -⟩ := (h.offers _ o).1 ho
  obtain rfl := hcalls.eq_of_id hv hs' hs (h.client?_isSome hs') (h.client?_isSome hs) hid
  rw [ht] at hheld
  cases hheld

/-- A called station offers. -/
theorem offered (h : Deciding p id stage c) (ht : stage s = .called) :
    Deciding p id (Function.update stage s .offered) c := by
  refine ⟨fun s' hs' => ?_, ?_, h.accepted, h.purchase, fun i o => ?_, h.answered⟩
  · by_cases hk : s' = s
    · rw [hk, Function.update_self]
      exact .inr (.inl rfl)
    · rw [Function.update_of_ne hk]
      exact h.stages s' hs'
  · rw [h.outstanding, tally_congr fun s' _ => view_update Stage.unheard (by rw [ht]; rfl) s']
  · rw [h.offers]
    have hheld : ∀ s', Function.update stage s .offered s' = .held ↔ stage s' = .held := fun s' => by
      rw [← decide_eq_decide]
      exact view_update (fun t => decide (t = .held)) (by rw [ht]; rfl) s'
    simp only [hheld]

/-- The client holds an offer that it hears for the first time, and concludes. -/
theorem react_propose (h : Deciding p id stage c) {d : Dialogue} (hnone : c.offers.get? d.id = none)
    (price : Int64) : c.react (.propose d (Weather.Station.proposal { price })) =
      (c.hearing d.id ⟨d.counterparty, price⟩).conclude := by
  have hnew : c.answered.contains d.id = false := by
    rw [h.answered, SortedMap.contains, hnone]
    rfl
  exact Client.onPropose_eq (Weather.Station.priceOf_proposal { price }) h.accepted hnew

/-- One more offer is heard. -/
theorem hear (h : Deciding p id stage c) (hcalls : Calls p id stage client) (hv : Viable p)
    (hs : s ∈ p.stations) (ht : stage s = .offered) :
    Deciding p id (Function.update stage s .held) (c.hearing (id s) ⟨s.address, s.price⟩) := by
  refine ⟨fun s' hs' => ?_, ?_, h.accepted, h.purchase, fun i o => ?_, fun i => ?_⟩
  · by_cases hk : s' = s
    · rw [hk, Function.update_self]
      exact .inr (.inr rfl)
    · rw [Function.update_of_ne hk]
      exact h.stages s' hs'
  · have htally := tally_update hv hs Stage.unheard stage .held
    rw [ht, ← h.outstanding] at htally
    change c.outstanding - 1 = _
    change _ + 1 = c.outstanding + 0 at htally
    omega
  · change (c.offers.insert (id s) _).get? i = some o ↔ _
    rw [SortedMap.get?_insert]
    by_cases hi : id s = i
    · rw [if_pos hi]
      constructor
      · rintro ⟨⟩
        exact ⟨s, hs, Function.update_self .., hi, rfl⟩
      · rintro ⟨s', hs', -, hid, rfl⟩
        rw [hcalls.eq_of_id hv hs hs' (h.client?_isSome hs) (h.client?_isSome hs') (hi.trans hid.symm)]
    · rw [if_neg hi, h.offers]
      refine exists_congr fun s' => and_congr_right fun hs' => ?_
      by_cases hk : s' = s
      · subst hk
        exact iff_of_false (fun hx => hi hx.2.1) fun hx => hi hx.2.1
      · rw [Function.update_of_ne hk]
  · change (c.answered.insert (id s) ()).contains i = (c.offers.insert (id s) _).contains i
    have hi := h.answered i
    rw [SortedMap.contains, SortedMap.contains] at hi ⊢
    rw [SortedMap.get?_insert, SortedMap.get?_insert]
    split
    · rfl
    · exact hi

/-- Behind the last offer all offers are held, under the numbers of the deals. -/
theorem all_held (h : Deciding p id stage c) (h0 : c.outstanding = 0) (hs : s ∈ p.stations) :
    stage s = .held := by
  have hsum : tally p Stage.unheard stage = 0 := h.outstanding.symm.trans h0
  have hzero : Stage.unheard (stage s) = 0 :=
    List.sum_eq_zero_iff_forall_eq_nat.1 hsum _ (List.mem_map.2 ⟨s, hs, rfl⟩)
  rcases h.stages s hs with hst | hst | hst
  · rw [hst] at hzero
    cases hzero
  · rw [hst] at hzero
    cases hzero
  · exact hst

/-- When nothing is on its way all stations have been heard. -/
theorem outstanding_eq_zero (h : Deciding p id stage c) (hnone : ∀ s ∈ p.stations,
    (stage s).toStation? = none ∧ (stage s).toClient? s.price = none) : c.outstanding = 0 := by
  rw [h.outstanding, tally_const (n := 0) fun s hs => ?_, Nat.mul_zero]
  obtain ⟨hto, hfrom⟩ := hnone s hs
  rcases h.stages s hs with hst | hst | hst
  · rw [hst] at hto
    cases hto
  · rw [hst] at hfrom
    cases hfrom
  · rw [hst]
    rfl

/-- The offers that the client holds in the end, as a list of stations. -/
theorem stations_of_keys (h : Deciding p id stage c) (hcalls : Calls p id stage client) (hv : Viable p)
    (h0 : c.outstanding = 0) : ∃ l : List StationPlan, c.offers.keys = l.map id ∧ l.Perm p.stations := by
  have hnodup : (p.stations.map id).Nodup := hv.nodup.of_map.map_on fun s hs s' hs' =>
    hcalls.eq_of_id hv hs hs' (h.client?_isSome hs) (h.client?_isSome hs')
  refine SortedMap.exists_map_eq_keys hnodup fun i => ?_
  rw [List.mem_map]
  constructor
  · rintro ⟨o, ho⟩
    obtain ⟨s, hs, -, hid, -⟩ := (h.offers i o).1 ho
    exact ⟨s, hs, hid⟩
  · rintro ⟨s, hs, hid⟩
    exact ⟨_, (h.offers i _).2 ⟨s, hs, h.all_held h0 hs, hid, rfl⟩⟩

/-- Behind the last offer the client accepts a cheapest one and declines the others. -/
theorem conclude_eq (h : Deciding p id stage c) (hcalls : Calls p id stage client) (hv : Viable p)
    (h0 : c.outstanding = 0) : ∃ w l, (w :: l).Perm p.stations ∧ (∀ s ∈ p.stations, w.price ≤ s.price) ∧
      c.offers.size = p.stations.length ∧ c.conclude =
        (.accept (id w) :: l.map fun s => .decline (id s),
          { c with accepted := some (id w, ⟨w.address, w.price⟩) }) := by
  obtain ⟨l, hkeys, hperm⟩ := h.stations_of_keys hcalls hv h0
  have hsize : c.offers.size = p.stations.length := by
    rw [← SortedMap.length_keys, hkeys, List.length_map, hperm.length_eq]
  have hne : c.offers.toList ≠ [] := fun hnil => by
    have : c.offers.size = 0 := congrArg List.length hnil
    exact hv.nonempty (List.length_eq_zero_iff.1 (hsize.symm.trans this))
  obtain ⟨⟨i, o⟩, hb, hbest, hall⟩ := Client.best?_spec _ hne
  obtain ⟨w, hw, -, rfl, rfl⟩ := (h.offers i o).1 (SortedMap.mem_toList_iff.1 hb)
  have hnodup : l.Nodup := hperm.nodup_iff.2 hv.nodup.of_map
  have hid : ∀ s ∈ l, (id s ≠ id w ↔ s ≠ w) := fun s hs => by
    have hs := hperm.subset hs
    refine not_congr ⟨hcalls.eq_of_id hv hs hw (h.client?_isSome hs) (h.client?_isSome hw), ?_⟩
    rintro rfl
    rfl
  refine ⟨w, l.erase w, ?_, fun s hs => ?_, hsize, ?_⟩
  · exact (List.perm_cons_erase (hperm.symm.subset hw)).symm.trans hperm
  · have hmem : (id s, ⟨s.address, s.price⟩) ∈ c.offers.toList :=
      SortedMap.mem_toList_iff.2 ((h.offers _ _).2 ⟨s, hs, h.all_held h0 hs, rfl, rfl⟩)
    exact (hall _ hmem).price_le
  · have hothers : c.offers.keys.filter (· ≠ id w) = (l.erase w).map id := by
      rw [hkeys, List.filter_map, hnodup.erase_eq_filter]
      congr 1
      refine List.filter_congr fun s hs => ?_
      exact Bool.eq_iff_iff.2 (by simpa using hid s hs)
    have hopen : ¬ (c.accepted.isSome ∨ 0 < c.outstanding) := by
      rw [h.accepted, h0]
      simp
    rw [Client.conclude, if_neg hopen, hbest]
    simp only [hothers, List.map_map]
    rfl

end Deciding

namespace Decided

/-- What is on its way to a station is an acceptance to the chosen one, or a refusal to another. -/
theorem of_toStation? (h : Decided p id stage w c) (hs : s ∈ p.stations) {l : Letter}
    (hl : (stage s).toStation? = some l) :
    s = w ∧ stage s = .chosen ∨ s ≠ w ∧ stage s = .dismissed := by
  by_cases hsw : s = w
  · subst hsw
    rcases h.winner with hst | hst | hst
    · exact .inl ⟨rfl, hst⟩
    · rw [hst] at hl
      cases hl
    · rw [hst] at hl
      cases hl
  · rcases h.others s hs hsw with hst | hst
    · exact .inr ⟨hsw, hst⟩
    · rw [hst] at hl
      cases hl

/-- What is on its way to the client is the measurement. -/
theorem of_toClient? (h : Decided p id stage w c) (hs : s ∈ p.stations) {l : Letter}
    (hl : (stage s).toClient? s.price = some l) : s = w ∧ stage s = .served := by
  by_cases hsw : s = w
  · subst hsw
    rcases h.winner with hst | hst | hst
    · rw [hst] at hl
      cases hl
    · exact ⟨rfl, hst⟩
    · rw [hst] at hl
      cases hl
  · rcases h.others s hs hsw with hst | hst <;> rw [hst] at hl <;> cases hl

/-- When nothing is on its way the client has bought. -/
theorem bought (h : Decided p id stage w c)
    (hnone : (stage w).toStation? = none ∧ (stage w).toClient? w.price = none) : stage w = .bought := by
  obtain ⟨hto, hfrom⟩ := hnone
  rcases h.winner with hst | hst | hst
  · rw [hst] at hto
    cases hto
  · rw [hst] at hfrom
    cases hfrom
  · exact hst

/-- The chosen station serves. -/
theorem served (h : Decided p id stage w c) (ht : stage w = .chosen) :
    Decided p id (Function.update stage w .served) w c := by
  refine ⟨h.mem, h.cheapest, .inr (.inl (Function.update_self ..)), fun s' hs' hne => ?_, h.accepted,
    h.offers, ?_⟩
  · rw [Function.update_of_ne hne]
    exact h.others s' hs' hne
  · rw [h.purchase, Function.update_self, ht]
    rfl

/-- A dismissed station leaves. -/
theorem refused (h : Decided p id stage w c) (hsw : s ≠ w) :
    Decided p id (Function.update stage s .refused) w c := by
  have hw : Function.update stage s .refused w = stage w := Function.update_of_ne hsw.symm _ _
  refine ⟨h.mem, h.cheapest, hw ▸ h.winner, fun s' hs' hne => ?_, h.accepted, h.offers, hw ▸ h.purchase⟩
  by_cases hk : s' = s
  · rw [hk, Function.update_self]
    exact .inr rfl
  · rw [Function.update_of_ne hk]
    exact h.others s' hs' hne

end Decided

end Market

end Negotiation
