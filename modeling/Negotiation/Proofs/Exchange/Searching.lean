import Mathlib.Data.List.Forall2
import Negotiation.Proofs.Exchange.Registration

/-!
What searches find. Both searches find the services of the model that is asked for, by agent and then by
name (`Finds`), and what is there to be found is what the history says (`service?_run_iff`); the wide one
reports in the same order (`Reports`), with a distance where the agent that searches and the service that
is found both have a location. Main statement: `searches_by_history`.
-/

namespace Negotiation

/-! ### Locations -/

theorem Value.location?_eq_some_iff {v : Value} {l : Location} : v.location? = some l ↔ v = .location l := by
  cases v <;> simp [Value.location?]

namespace Description

variable {d : Description} {l : Location}

/-- Some attribute holds a location. -/
def Located (d : Description) : Prop := ∃ name l, d.get? name = some (.location l)

/-- The first attribute, by name, that holds a location holds this one. -/
def LocatedAt (d : Description) (l : Location) : Prop :=
  ∃ name, d.get? name = some (.location l) ∧
    ∀ earlier l', earlier < name → d.get? earlier ≠ some (.location l')

theorem isSome_location? : d.location?.isSome ↔ d.Located := by
  rw [location?, SortedMap.isSome_findSome?_values]
  simp only [Option.isSome_iff_exists, Value.location?_eq_some_iff]
  constructor
  · rintro ⟨name, v, hv, l, rfl⟩
    exact ⟨name, l, hv⟩
  · rintro ⟨name, l, hv⟩
    exact ⟨name, _, hv, l, rfl⟩

theorem location?_eq_some_iff : d.location? = some l ↔ d.LocatedAt l := by
  rw [location?, SortedMap.findSome?_values_eq_some_iff]
  constructor
  · rintro ⟨name, v, hv, hl, hbefore⟩
    obtain rfl := Value.location?_eq_some_iff.1 hl
    refine ⟨name, hv, fun earlier l' hlt hl' => ?_⟩
    cases hbefore earlier _ hlt hl'
  · rintro ⟨name, hv, hbefore⟩
    refine ⟨name, _, hv, rfl, fun earlier v hlt hv' => ?_⟩
    rw [Option.eq_none_iff_forall_ne_some]
    intro l' hl'
    obtain rfl := Value.location?_eq_some_iff.1 hl'
    exact hbefore earlier l' hlt hv'

end Description

theorem Query.accepts_iff {q : Query} {d : Description} :
    q.accepts d ↔ ∀ m, q.model = some m → d.model.name = m.name := by
  rw [accepts, modelName?]
  cases q.model <;> simp

namespace Exchange

variable {x : Exchange} {key name : String} {d : Description} {l : Location} {km : Float}

/-- An agent is where the first of its services, by name, is that has a location. -/
def AgentAt (x : Exchange) (key : String) (l : Location) : Prop :=
  ∃ name d, x.service? key name = some d ∧ d.LocatedAt l ∧
    ∀ earlier d', earlier < name → x.service? key earlier = some d' → ¬ d'.Located

theorem isSome_locationOf :
    (x.locationOf key).isSome ↔ ∃ name d, x.service? key name = some d ∧ d.Located := by
  rw [locationOf, SortedMap.isSome_findSome?_values]
  simp only [Description.isSome_location?]
  rfl

theorem locationOf_eq_some_iff : x.locationOf key = some l ↔ x.AgentAt key l := by
  rw [locationOf, SortedMap.findSome?_values_eq_some_iff]
  simp only [Description.location?_eq_some_iff, ← Option.not_isSome_iff_eq_none, Description.isSome_location?]
  rfl

/-! ### What is found -/

/-- The address under which a service of an agent is found. -/
def foundAt (p : String × String) : Address := (Address.ofKey p.1).withLabel p.2

/-- A list holds the services that a query asks for, by agent and then by name. -/
structure Finds (x : Exchange) (q : Query) (found : List (String × String)) : Prop where
  ascending : found.Pairwise (Prod.Lex (· < ·) (· < ·))
  mem_iff : ∀ key name, (key, name) ∈ found ↔
    ∃ d, x.service? key name = some d ∧ ∀ m, q.model = some m → d.model.name = m.name

/-- An item reports a service that an agent has found: its address, and how far it is from the agent. -/
structure Reports (x : Exchange) (key : String) (p : String × String) (item : SearchItem) : Prop where
  agentKey : item.agentKey = (foundAt p).text
  measured : item.distance.isSome ↔ (∃ name d, x.service? key name = some d ∧ d.Located) ∧
    ∃ d, x.service? p.1 p.2 = some d ∧ d.Located
  distance : ∀ km, item.distance = some km ↔ ∃ o d l, x.AgentAt key o ∧
    x.service? p.1 p.2 = some d ∧ d.LocatedAt l ∧ km = o.distance l

/-- Services of different agents or names are found under different addresses. -/
theorem foundAt_injective : Function.Injective foundAt := by
  rintro ⟨key, name⟩ ⟨key', name'⟩ h
  simp only [foundAt, Address.ofKey, Address.withLabel, Address.labelOf, Address.mk.injEq] at h
  obtain ⟨rfl, hl⟩ := h
  split at hl <;> split at hl <;> simp_all

theorem pairwise_allServices (x : Exchange) :
    x.allServices.Pairwise fun s t => Prod.Lex (· < ·) (· < ·) (s.1, s.2.1) (t.1, t.2.1) := by
  rw [allServices, List.pairwise_flatMap]
  constructor
  · rintro ⟨key, offers⟩ -
    exact List.pairwise_map.2 (offers.sorted.imp fun h => .right _ h)
  · refine x.services.sorted.imp fun {a b} hlt s hs t ht => ?_
    obtain ⟨_, -, rfl⟩ := List.mem_map.1 hs
    obtain ⟨_, -, rfl⟩ := List.mem_map.1 ht
    exact .left _ _ hlt

/-- The services that answer a query, without their descriptions. -/
def answering (x : Exchange) (q : Query) : List (String × String) :=
  (x.allServices.filter fun s => q.accepts s.2.2).map fun s => (s.1, s.2.1)

theorem finds_answering (x : Exchange) (q : Query) : x.Finds q (x.answering q) where
  ascending := List.pairwise_map.2 (x.pairwise_allServices.filter _)
  mem_iff key name := by
    rw [answering, List.mem_map]
    constructor
    · rintro ⟨⟨key', name', d⟩, hs, heq⟩
      cases heq
      obtain ⟨hmem, hq⟩ := List.mem_filter.1 hs
      exact ⟨d, mem_allServices_iff.1 hmem, Query.accepts_iff.1 hq⟩
    · rintro ⟨d, hs, hq⟩
      exact ⟨(key, name, d), List.mem_filter.2 ⟨mem_allServices_iff.2 hs, Query.accepts_iff.2 hq⟩, rfl⟩

theorem map_fst_matching_eq (x : Exchange) (q : Query) :
    (x.matching q).map (·.1) = (x.answering q).map foundAt := by
  rw [matching, answering, List.map_map, List.map_map]
  rfl

section Items

variable {origin location : Option Location} {a : Address}

/-- A distance needs two locations. -/
theorem isSome_distance_itemOf :
    (itemOf origin a location).distance.isSome ↔ origin.isSome ∧ location.isSome := by
  cases origin <;> cases location <;> simp [itemOf]

theorem distance_itemOf_eq_some_iff : (itemOf origin a location).distance = some km ↔
    ∃ o l, origin = some o ∧ location = some l ∧ km = o.distance l := by
  cases origin <;> cases location <;> simp [itemOf, eq_comm]

end Items

theorem reports_itemOf (hs : x.service? key name = some d) (searcher : String) :
    x.Reports searcher (key, name) (itemOf (x.locationOf searcher) (foundAt (key, name)) d.location?) where
  agentKey := rfl
  measured := by
    rw [isSome_distance_itemOf, isSome_locationOf, Description.isSome_location?]
    simp [hs]
  distance km := by
    rw [distance_itemOf_eq_some_iff]
    simp only [locationOf_eq_some_iff, Description.location?_eq_some_iff, hs, Option.some.injEq]
    constructor
    · rintro ⟨o, l, ho, hl, rfl⟩
      exact ⟨o, d, l, ho, rfl, hl, rfl⟩
    · rintro ⟨o, _, l, ho, rfl, hl, rfl⟩
      exact ⟨o, l, ho, hl, rfl⟩

/-- The wide search reports what the other one finds, in the same order. -/
theorem forall₂_reports (x : Exchange) (searcher : String) (q : Query) : List.Forall₂ (x.Reports searcher)
    (x.answering q) ((x.matching q).map fun (a, l) => itemOf (x.locationOf searcher) a l) := by
  rw [matching, answering, List.map_map, List.forall₂_map_left_iff, List.forall₂_map_right_iff,
    List.forall₂_same]
  rintro ⟨key, name, d⟩ hs
  exact reports_itemOf (mem_allServices_iff.1 (List.mem_filter.1 hs).1) searcher

/-- BY HISTORY: behind every run from a new broker, a service is there exactly when its last registration
    through its agent's connection comes after every call by which it was taken back or its agent left, and
    it has the description of that registration. A search is answered exactly when the agent that searches
    is there, takes events and has room; then it gets one event, and nobody else gets any. The event lists
    the services whose model has the name that is asked for, or all if none is asked for, each once, by
    agent and then by name; that of a wide search reports on the same services in the same order, under the
    texts of the same addresses, and with the distance from where the agent is to where the service is,
    if both have a location. -/
theorem searches_by_history (capacity : Nat) (cs : List Call) :
    let x := (new capacity).run cs
    (∀ key name d, x.service? key name = some d ↔ (new capacity).OnOffer cs key name d) ∧
    Function.Injective foundAt ∧
    ∀ key id q,
      let search := x.submit key (.search id q)
      let wide := x.submit key (.searchWide id q)
      (search.1 = .ok () ↔ x.Present key ∧ ¬ x.Full key) ∧ (wide.1 = .ok () ↔ x.Present key ∧ ¬ x.Full key) ∧
      ∃ found, x.Finds q found ∧
        (search.1 = .ok () → x.Appends search.2 key (.searchResult id (found.map foundAt))) ∧
        (wide.1 = .ok () → ∃ items, List.Forall₂ (x.Reports key) found items ∧
          x.Appends wide.2 key (.searchResultWide id items)) := by
  intro x
  refine ⟨fun key name d => service?_run_iff rfl, foundAt_injective, fun key id q => ?_⟩
  refine ⟨respond_eq_ok_iff, respond_eq_ok_iff, x.answering q, x.finds_answering q, fun hok => ?_,
    fun hok => ?_⟩
  · rw [← map_fst_matching_eq]
    exact appends_of_respond hok
  · exact ⟨_, x.forall₂_reports key q, appends_of_respond hok⟩

/-- Alice offers a nameless service; Bob offers one that he has registered twice, and has taken another
back. He finds the two that are left, Alice's first and his own under its second description, and hears
the distance to both. -/
theorem found_after_withdrawal :
    let placed (latitude : Float) : Description :=
      .generated (.ofList [("place", .location ⟨latitude, 0⟩)]) "weather"
    let route (key name : String) : Route := .ofService (.ofKey key) name
    let cs : List Call := [.connect "alice", .connect "bob",
      .request "bob" (.register 1 (route "bob" "rain") (placed 1)),
      .request "bob" (.register 2 (route "bob" "wind") (placed 2)),
      .request "alice" (.register 1 (route "alice" "") (placed 3)),
      .request "bob" (.unregister 3 (route "bob" "rain") (placed 1)),
      .request "bob" (.register 4 (route "bob" "wind") (placed 4))]
    let x := (new 4).run cs
    let wide := x.submit "bob" (.searchWide 5 (.forModel ⟨"weather", [], none⟩))
    (new 4).OnOffer cs "bob" "wind" (placed 4) ∧ (∀ d, ¬ (new 4).OnOffer cs "bob" "rain" d) ∧
    wide.1 = .ok () ∧ ∃ items, wide.2.waiting "bob" = [.searchResultWide 5 items] ∧
      items.map (·.agentKey) = ["alice", "bob/wind"] ∧ ∀ item ∈ items, item.distance.isSome := by
  intro placed route cs x wide
  obtain ⟨hreg, hinj, hsearch⟩ := searches_by_history 4 cs
  obtain ⟨-, -, found, -, hnarrow, hwide⟩ := hsearch "bob" 5 (.forModel ⟨"weather", [], none⟩)
  have hempty : ((new 4).run cs).waiting "bob" = [] := by decide +kernel
  have hfound : found = [("alice", ""), ("bob", "wind")] := by
    have hsent :
        (((new 4).run cs).submit "bob" (.search 5 (.forModel ⟨"weather", [], none⟩))).2.waiting "bob" =
          [.searchResult 5 ([("alice", ""), ("bob", "wind")].map foundAt)] := by decide +kernel
    have hposted := (hnarrow (by decide +kernel)).1
    rw [hsent, hempty, List.nil_append, List.singleton_inj, Event.searchResult.injEq] at hposted
    exact (List.map_injective_iff.2 hinj hposted.2).symm
  subst hfound
  have hok : wide.1 = .ok () := by decide +kernel
  obtain ⟨items, hitems, hposted, -⟩ := hwide hok
  rw [hempty, List.nil_append] at hposted
  have hwind : x.service? "bob" "wind" = some (placed 4) := by decide +kernel
  have hnone : x.service? "bob" "rain" = none := by decide +kernel
  have hnameless : x.service? "alice" "" = some (placed 3) := by decide +kernel
  have hlocated : ∀ latitude, (placed latitude).Located := fun latitude => ⟨"place", ⟨latitude, 0⟩, rfl⟩
  rcases hitems with - | ⟨ha, - | ⟨hw, ⟨⟩⟩⟩
  refine ⟨(hreg "bob" "wind" _).1 hwind, fun d h => ?_, hok, _, hposted, ?_, ?_⟩
  · rw [(hreg "bob" "rain" d).2 h] at hnone
    cases hnone
  · rw [List.map_cons, List.map_cons, List.map_nil, ha.agentKey, hw.agentKey]
    decide +kernel
  · have hbob : ∃ name d, x.service? "bob" name = some d ∧ d.Located := ⟨"wind", _, hwind, hlocated 4⟩
    simp only [List.mem_cons, List.not_mem_nil, or_false, forall_eq_or_imp, forall_eq]
    exact ⟨ha.measured.2 ⟨hbob, _, hnameless, hlocated 3⟩, hw.measured.2 ⟨hbob, _, hwind, hlocated 4⟩⟩

end Exchange

end Negotiation
