import Negotiation.Proofs.Market.SetUp

/-!
How a market ends. Agents take events in any order; no action fails, and when nothing waits any more
the client has bought from a cheapest station. Main statements: `ends_with_cheapest` for every order
of the events, and `run_ok` for the order in which a market is run.
-/

namespace Negotiation

namespace Network

variable {σ : Type} {n : Network σ} {key : String}

theorem mem_busy_iff : key ∈ n.busy ↔ n.exchange.waiting key ≠ [] := by
  rw [busy, SortedMap.mem_keys_iff, SortedMap.get?_filter, Exchange.waiting]
  cases n.exchange.mailboxes.get? key with
  | none => simp
  | some b => simp

theorem waiting_eq_nil (h : n.busy = []) (key : String) : n.exchange.waiting key = [] := by
  by_contra hw
  have hbusy := mem_busy_iff.2 hw
  rw [h] at hbusy
  cases hbusy

end Network

namespace Market

variable {p : Plan} {m m' : Market} {k : Nat} {now : Millis} {key : String} {b : Weather.Purchase}

/-- The agents named take events, one after the other and each at its time. -/
def trade (m : Market) (steps : List (Millis × String)) : Market :=
  steps.foldl (fun m e => m.step e.1 e.2) m

theorem Goes.step_eq (h : Goes m now key m') : m.step now key = m' := by
  obtain ⟨ev, htaken⟩ := h.taken
  rw [step, htaken]

theorem step_of_waiting_nil (hw : m.exchange.waiting key = []) : m.step now key = m := by
  rw [step, Network.take_of_waiting_nil hw]

namespace Underway

/-- Whoever is next, the market stays under way and what the client has bought stays. -/
theorem step_any (hv : Viable p) (h : Underway p k m) (now : Millis) (key : String) :
    ∃ k' ≤ k, Underway p k' (m.step now key) ∧
      ∀ b, m.purchase? p.client = some b → (m.step now key).purchase? p.client = some b := by
  by_cases hw : m.exchange.waiting key = []
  · rw [step_of_waiting_nil hw]
    exact ⟨k, Nat.le_refl k, h, fun _ hb => hb⟩
  · obtain ⟨m', k', hgoes, rfl, h', hkept⟩ := h.step hv hw now
    rw [hgoes.step_eq]
    exact ⟨k', Nat.le_succ k', h', hkept⟩

theorem trade (hv : Viable p) (h : Underway p k m) (steps : List (Millis × String)) :
    ∃ k' ≤ k, Underway p k' (m.trade steps) ∧
      ∀ b, m.purchase? p.client = some b → (m.trade steps).purchase? p.client = some b := by
  induction steps generalizing k m with
  | nil => exact ⟨k, Nat.le_refl k, h, fun _ hb => hb⟩
  | cons e rest ih =>
    obtain ⟨k₁, hk₁, h₁, hkept₁⟩ := h.step_any hv e.1 e.2
    obtain ⟨k₂, hk₂, h₂, hkept₂⟩ := ih h₁
    exact ⟨k₂, Nat.le_trans hk₂ hk₁, h₂, fun b hb => hkept₂ b (hkept₁ b hb)⟩

/-- No action fails. -/
theorem verdicts (hv : Viable p) (h : Underway p k m) (now : Millis) (key : String) :
    ∀ v ∈ m.verdicts Application.handler now Application.effort key, v = .ok () := by
  by_cases hw : m.exchange.waiting key = []
  · rw [Network.verdicts, Network.executed_of_waiting_nil hw]
    exact List.forall_mem_nil _
  · obtain ⟨m', k', hgoes, -⟩ := h.step hv hw now
    exact hgoes.verdicts

end Underway

/-- CHEAPEST: a market whose plan is accepted is set up, and in whatever order the agents take their
    events, each takes what waits for it and no action fails. What the client has bought it keeps, and
    when nothing waits it has bought the measurement of a cheapest station, knowing the offers of all. -/
theorem ends_with_cheapest (hp : p.validate = .ok ()) (hroom : p.stations.length ≤ p.limits.capacity)
    (hqueue : p.stations.length ≤ Exchange.defaultCapacity) (start : String → UInt32) :
    ∃ m₀, setUp p start = .ok m₀ ∧ ∀ steps : List (Millis × String),
      (∀ now key, ∀ v ∈ (m₀.trade steps).verdicts Application.handler now Application.effort key,
        v = .ok ()) ∧
      (∀ now key, (m₀.trade steps).exchange.waiting key ≠ [] → ∃ ev m,
        (m₀.trade steps).take Application.handler now Application.effort key = some (ev, .ok (), m)) ∧
      (∀ b, (m₀.trade steps).purchase? p.client = some b →
        ∀ more, ((m₀.trade steps).trade more).purchase? p.client = some b) ∧
      ((m₀.trade steps).busy = [] → ∃ s ∈ p.stations, (∀ s' ∈ p.stations, s.price ≤ s'.price) ∧
        ∃ engine station, (m₀.trade steps).members.get? s.key = some ⟨engine, .station station, true⟩ ∧
          station.served = 1 ∧ (m₀.trade steps).purchase? p.client =
            some ⟨s.key ++ "/weather", s.price, p.stations.length, station.measurement⟩) := by
  have hv := viable_of_validate hp hroom hqueue
  obtain ⟨m₀, hsetUp, h₀⟩ := setUp_underway hv start
  refine ⟨m₀, hsetUp, fun steps => ?_⟩
  obtain ⟨k, -, h, -⟩ := h₀.trade hv steps
  refine ⟨fun now key => h.verdicts hv now key, fun now key hw => ?_, fun b hb more => ?_,
    fun hbusy => ?_⟩
  · obtain ⟨m', k', hgoes, -⟩ := h.step hv hw now
    obtain ⟨ev, htaken⟩ := hgoes.taken
    exact ⟨ev, m', htaken⟩
  · obtain ⟨k', -, -, hkept⟩ := h.trade hv more
    exact hkept b hb
  · obtain ⟨w, hw, hcheap, hb, e, station, hstation, hmeasurement, hserved⟩ :=
      h.finished (Network.waiting_eq_nil hbusy)
    refine ⟨w, hw, hcheap, e, station, hstation, hserved, hb.trans ?_⟩
    rw [bargain, w.text_address, hmeasurement]

/-- Two stations of which the second is cheaper: the client buys from it. -/
theorem ends_with_second : ∃ m₀,
    setUp ⟨"C", [{ key := "A", price := 60 }, { key := "B", price := 50 }], 10, {}⟩ (fun _ => 0) = .ok m₀ ∧
    ∀ steps, (m₀.trade steps).busy = [] →
      ((m₀.trade steps).purchase? "C").map (fun b => (b.station, b.price, b.proposals)) =
        some ("B/weather", 50, 2) := by
  obtain ⟨m₀, hsetUp, h⟩ := ends_with_cheapest
    (p := ⟨"C", [{ key := "A", price := 60 }, { key := "B", price := 50 }], 10, {}⟩)
    (by decide +kernel) (by decide) (by decide) fun _ => 0
  refine ⟨m₀, hsetUp, fun steps hbusy => ?_⟩
  obtain ⟨s, hs, hcheap, e, station, -, -, hb⟩ := (h steps).2.2.2 hbusy
  rw [hb]
  obtain rfl | rfl : s = { key := "A", price := 60 } ∨ s = { key := "B", price := 50 } := by
    simpa using hs
  · exact absurd (hcheap { key := "B", price := 50 } (by simp)) (by decide)
  · rfl

/-! ### Running a market -/

theorem mem_busy_of_next? {client : String} (h : m.next? client = some key) : key ∈ m.busy := by
  rcases Option.or_eq_some_iff.1 h with hfind | ⟨-, hhead⟩
  · exact List.mem_of_find?_eq_some hfind
  · exact List.mem_of_mem_head? hhead

theorem busy_of_next?_eq_none {client : String} (h : m.next? client = none) : m.busy = [] :=
  List.head?_eq_none_iff.1 (Option.or_eq_none_iff.1 h).2

theorem Seats.length_lt_size {id : StationPlan → DialogueId} {stage : StationPlan → Stage}
    {members : SortedMap String (Member Application)} (h : Seats p id stage members) (hv : Viable p)
    {member : Member Application} (hm : members.get? p.client = some member) :
    p.stations.length < members.size := by
  have hnodup := hv.admissible.distinct
  have hsub : p.client :: p.stations.map (·.key) ⊆ members.keys := by
    rw [List.cons_subset]
    refine ⟨SortedMap.mem_keys_iff.2 ⟨_, hm⟩, fun key hkey => ?_⟩
    obtain ⟨s, hs, rfl⟩ := List.mem_map.1 hkey
    obtain ⟨e, w, hstation, -⟩ := h s hs
    exact SortedMap.mem_keys_iff.2 ⟨_, hstation⟩
  have hle := (hnodup.subperm hsub).length_le
  rwa [List.length_cons, List.length_map, members.length_keys] at hle

namespace Underway

theorem length_lt_size (hv : Viable p) (h : Underway p k m) : p.stations.length < m.members.size := by
  cases h with
  | ready hm hl hkeep hworld => exact hworld.seats.length_lt_size hv hm
  | deciding hm hworld hc hpos => exact hworld.seats.length_lt_size hv hm
  | decided hm hworld hc => exact hworld.seats.length_lt_size hv hm

/-- A market settles within the number of events that are left. -/
theorem settleWithin (hv : Viable p) (h : Underway p k m) {bound : Nat} (hk : k ≤ bound) :
    ∃ k', Underway p k' (settleWithin p.client bound m) ∧
      ∀ key, (Market.settleWithin p.client bound m).exchange.waiting key = [] := by
  induction bound generalizing k m with
  | zero =>
    refine ⟨k, h, fun key => ?_⟩
    by_contra hw
    obtain ⟨m', k', -, hk', -⟩ := h.step hv hw 0
    omega
  | succ bound ih =>
    rw [Market.settleWithin]
    cases hnext : m.next? p.client with
    | none => exact ⟨k, h, Network.waiting_eq_nil (busy_of_next?_eq_none hnext)⟩
    | some key =>
      have hw := Network.mem_busy_iff.1 (mem_busy_of_next? hnext)
      obtain ⟨m', k', hgoes, hk', h', -⟩ := h.step hv hw 0
      simp only [hgoes.step_eq]
      exact ih h' (by omega)

end Underway

/-- A market whose plan is accepted runs to a purchase from a cheapest station. -/
theorem run_ok (hp : p.validate = .ok ()) (hroom : p.stations.length ≤ p.limits.capacity)
    (hqueue : p.stations.length ≤ Exchange.defaultCapacity) (start : String → UInt32) :
    ∃ s ∈ p.stations, (∀ s' ∈ p.stations, s.price ≤ s'.price) ∧
      run p start = .ok ⟨s.key ++ "/weather", s.price, p.stations.length, {}⟩ := by
  have hv := viable_of_validate hp hroom hqueue
  obtain ⟨m₀, hsetUp, h₀⟩ := setUp_underway hv start
  have hbound : p.stations.length * 3 + 2 ≤ 5 * m₀.members.size := by
    have hsize := h₀.length_lt_size hv
    omega
  obtain ⟨k, h, hw⟩ := h₀.settleWithin hv hbound
  obtain ⟨w, hmem, hcheap, hb, -⟩ := h.finished hw
  refine ⟨w, hmem, hcheap, ?_⟩
  rw [bargain, w.text_address] at hb
  simp only [run, hsetUp, Result.ok_bind, settle, hb]

end Market

end Negotiation
