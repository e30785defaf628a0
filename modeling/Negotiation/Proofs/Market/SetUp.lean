import Negotiation.Proofs.Exchange.Runs
import Negotiation.Proofs.Market.Runnable
import Negotiation.Proofs.Market.Trading

/-!
Setting up a market. A plan that is accepted has agents of different keys, so every agent is connected,
every service registered, and the search finds all stations. Main statements: `set_up_whenever_accepted`
for every plan that is accepted, and `setUp_underway` for one whose stations fit into the client's table
and its mailbox: the market is under way.
-/

namespace Negotiation

namespace Market

variable {p : Plan} {s : StationPlan} {l : List StationPlan} {m : Market}
  {x : Exchange} {key : String}

/-! ### What setting up asks of a plan -/

/-- A plan whose agents can take their places: each has a key of its own, and engines take the limits. -/
structure Admissible (p : Plan) : Prop where
  client : p.client ≠ ""
  stations : ∀ s ∈ p.stations, s.key ≠ ""
  distinct : (p.client :: p.stations.map (·.key)).Nodup
  limits : p.limits.validate = .ok ()

namespace Admissible

theorem client_not_mem (ha : Admissible p) : p.client ∉ p.stations.map (·.key) :=
  (List.nodup_cons.1 ha.distinct).1

theorem nodup (ha : Admissible p) : (p.stations.map (·.key)).Nodup := (List.nodup_cons.1 ha.distinct).2

theorem key_ne (ha : Admissible p) (hs : s ∈ p.stations) : s.key ≠ p.client := fun hkey =>
  ha.client_not_mem (hkey ▸ List.mem_map_of_mem hs)

end Admissible

theorem Viable.admissible (hv : Viable p) : Admissible p := by
  refine ⟨hv.client, fun s hs => (hv.keys s hs).1, List.nodup_cons.2 ⟨fun hmem => ?_, hv.nodup⟩, hv.limits⟩
  obtain ⟨s, hs, hkey⟩ := List.mem_map.1 hmem
  exact (hv.keys s hs).2 hkey

theorem admissible_of_runnable (h : p.Runnable) : Admissible p where
  client := h.client.1
  stations s hs := (h.stations s hs).key.1
  distinct := h.distinct
  limits := Limits.validate_eq_ok_iff.2 ⟨h.inactivityTimeout, h.maxDialogues, h.sweepInterval⟩

theorem viable_of_validate (h : p.validate = .ok ()) (hroom : p.stations.length ≤ p.limits.capacity)
    (hqueue : p.stations.length ≤ Exchange.defaultCapacity) : Viable p := by
  have hr := Plan.validate_eq_ok_iff.1 h
  have ha := admissible_of_runnable hr
  exact ⟨ha.client, fun s hs => ⟨ha.stations s hs, ha.key_ne hs⟩, ha.nodup, hr.nonempty, ha.limits, hroom,
    hqueue⟩

/-! ### Connecting -/

theorem connect_ok (hkey : key ≠ "") (hx : m.exchange.mailboxes.get? key = none) {limits : Limits}
    (hlimits : limits.validate = .ok ()) (start : UInt32) :
    m.connect key limits start = .ok ⟨{ home := .ofKey key, table := .new limits start },
      m.exchange.setMailbox key { events := [] }⟩ := by
  have hnot : ¬ m.exchange.isConnected key := by
    rw [Exchange.isConnected, Exchange.mailbox?, hx]
    decide
  have hconnect : m.exchange.connect key = .ok (m.exchange.setMailbox key { events := [] }) := by
    rw [Exchange.connect, if_neg hkey, if_neg hnot]
  simp only [connect, Engine.new, hconnect, hlimits]
  rfl

/-! ### Registering -/

/-- A station when it is connected. -/
def station (s : StationPlan) : Weather.Station := { price := s.price, location := s.location }

/-- The services of a station. -/
def offering (s : StationPlan) : SortedMap String Description :=
  SortedMap.empty.insert Weather.serviceName ⟨(station s).values, Weather.model⟩

/-- Some stations are connected and registered, and nobody else is there. -/
structure Registered (p : Plan) (l : List StationPlan) (m : Market) : Prop where
  capacity : m.exchange.capacity = Exchange.defaultCapacity
  seats : ∀ s ∈ l, ∃ e, m.members.get? s.key = some ⟨e, .station (station s), true⟩ ∧
    Seat p s 0 .found e (station s)
  boxes : ∀ s ∈ l, m.exchange.Keeps s.key []
  services : ∀ s ∈ l, m.exchange.services.get? s.key = some (offering s)
  strangers : ∀ key, key ∉ l.map (·.key) →
    m.exchange.mailboxes.get? key = none ∧ m.exchange.services.get? key = none

theorem registered_nil (p : Plan) : Registered p [] {} :=
  ⟨rfl, by simp, by simp, by simp, fun _ _ => ⟨rfl, rfl⟩⟩

/-- The market behind the registration of a station. -/
def registering (p : Plan) (start : String → UInt32) (s : StationPlan) (m : Market) : Market :=
  m.put s.key ⟨{ home := .ofKey s.key, table := .new p.limits (start s.key), nextRequest := 2 },
    { m.exchange.setMailbox s.key { events := [] } with
      services := m.exchange.services.insert s.key (offering s) }⟩ (.station (station s))

/-- One more station is connected and registered. -/
theorem addStation_ok (start : String → UInt32) (ha : Admissible p) (h : Registered p l m)
    (hs : s ∈ p.stations) (hnew : s.key ∉ l.map (·.key)) :
    addStation p.limits start m s = .ok (registering p start s m) := by
  obtain ⟨hbox, hservices⟩ := h.strangers _ hnew
  have hconnect := connect_ok (ha.stations s hs) hbox ha.limits (start s.key)
  have hempty : (m.exchange.setMailbox s.key { events := [] }).servicesOf s.key = .empty := by
    change (m.exchange.services.get? s.key).getD .empty = .empty
    rw [hservices]
    rfl
  have hdescription : (station s).description.mapError MarketError.misfit =
      .ok ⟨(station s).values, Weather.model⟩ := by
    rw [Weather.Station.description_ok]
    rfl
  rw [addStation, hconnect, Result.ok_bind]
  change ((station s).description.mapError MarketError.misfit >>= _) = _
  rw [hdescription, Result.ok_bind]
  change Except.ok (m.put _ ⟨_, (m.exchange.setMailbox s.key { events := [] }).register s.key
    Weather.serviceName ⟨(station s).values, Weather.model⟩⟩ _) = _
  rw [Exchange.register, hempty]
  rfl

theorem Registered.add (start : String → UInt32) (h : Registered p l m) (hnew : s.key ∉ l.map (·.key)) :
    Registered p (l ++ [s]) (registering p start s m) := by
  have hne : ∀ s' ∈ l, s.key ≠ s'.key := fun s' hs' hkey => hnew (List.mem_map.2 ⟨s', hs', hkey.symm⟩)
  have hother : ∀ s' ∈ l, ∀ {α : Type} (f : SortedMap String α) (a : α),
      (f.insert s.key a).get? s'.key = f.get? s'.key := fun s' hs' α f a => by
    rw [SortedMap.get?_insert, if_neg (hne s' hs')]
  have hself : ∀ {α : Type} (f : SortedMap String α) (a : α), (f.insert s.key a).get? s.key = some a :=
    fun f a => by rw [SortedMap.get?_insert, if_pos rfl]
  refine ⟨h.capacity, ?_, ?_, ?_, fun key hkey => ?_⟩
  · have hseat : Seat p s 0 .found { home := .ofKey s.key, table := .new p.limits (start s.key)
                                     nextRequest := 2 } (station s) :=
      ⟨rfl, rfl, rfl, rfl, rfl, fun _ => rfl, by rintro st a ⟨⟩⟩
    rw [List.forall_mem_append, List.forall_mem_singleton]
    refine ⟨fun s' hs' => ?_, _, hself .., hseat⟩
    rw [registering, Network.put, hother s' hs']
    exact h.seats s' hs'
  · rw [List.forall_mem_append, List.forall_mem_singleton]
    exact ⟨fun s' hs' => (h.boxes s' hs').setMailbox_ne (hne s' hs') _, Exchange.keeps_setMailbox ..⟩
  · rw [List.forall_mem_append, List.forall_mem_singleton]
    exact ⟨fun s' hs' => (hother s' hs' ..).trans (h.services s' hs'), hself ..⟩
  · rw [List.map_append, List.mem_append, not_or, List.map_singleton, List.mem_singleton] at hkey
    obtain ⟨hbox, hservice⟩ := h.strangers key hkey.1
    have hneq : s.key ≠ key := Ne.symm hkey.2
    exact ⟨(Exchange.get?_setMailbox ..).trans ((if_neg hneq).trans hbox),
      (SortedMap.get?_insert ..).trans ((if_neg hneq).trans hservice)⟩

theorem addStations_ok (start : String → UInt32) (ha : Admissible p) {rest : List StationPlan}
    (h : Registered p l m) (hl : l ++ rest = p.stations) :
    ∃ m', rest.foldlM (addStation p.limits start) m = .ok m' ∧ Registered p p.stations m' := by
  induction rest generalizing l m with
  | nil =>
    rw [List.append_nil] at hl
    exact ⟨m, rfl, hl ▸ h⟩
  | cons s rest ih =>
    have hs : s ∈ p.stations := hl ▸ List.mem_append_right _ List.mem_cons_self
    have hnew : s.key ∉ l.map (·.key) := fun hmem => by
      have hnodup := ha.nodup
      rw [← hl, List.map_append] at hnodup
      exact List.disjoint_of_nodup_append hnodup hmem List.mem_cons_self
    obtain ⟨m', hrest, h'⟩ := ih (h.add start hnew) (by rw [List.append_assoc]; exact hl)
    refine ⟨m', ?_, h'⟩
    rw [List.foldlM_cons, addStation_ok start ha h hs hnew]
    exact hrest

/-! ### Searching -/

/-- The search finds the stations in ascending order of their keys. -/
theorem Registered.found (h : Registered p p.stations m) (ha : Admissible p) : ∃ l : List StationPlan,
    (m.exchange.matching Weather.Client.query).map (·.1) = l.map StationPlan.address ∧
    l.Perm p.stations := by
  have hregistered : ∀ key, (∃ offers, m.exchange.services.get? key = some offers) ↔
      key ∈ p.stations.map (·.key) := by
    intro key
    constructor
    · rintro ⟨offers, ho⟩
      by_contra hnot
      rw [(h.strangers key hnot).2] at ho
      cases ho
    · intro hkey
      obtain ⟨s, hs, rfl⟩ := List.mem_map.1 hkey
      exact ⟨_, h.services s hs⟩
  obtain ⟨l, hkeys, hl⟩ := SortedMap.exists_map_eq_keys ha.nodup hregistered
  refine ⟨l, ?_, hl⟩
  -- each agent has one service, and it is of the weather model
  have hone : ∀ e ∈ m.exchange.services.toList, ∃ d, Weather.Client.query.accepts d ∧
      e.2.toList = [(Weather.serviceName, d)] := by
    rintro ⟨key, offers⟩ he
    have hkey : key ∈ m.exchange.services.keys := List.mem_map.2 ⟨_, he, rfl⟩
    rw [hkeys] at hkey
    obtain ⟨s, hs, rfl⟩ := List.mem_map.1 hkey
    have hoffers := (SortedMap.mem_toList_iff.1 he).symm.trans (h.services s (hl.subset hs))
    obtain rfl := Option.some.inj hoffers
    exact ⟨⟨(station s).values, Weather.model⟩, decide_eq_true rfl, rfl⟩
  rw [Exchange.map_fst_matching hone, hkeys, List.map_map]
  rfl

/-- A search is answered at once. -/
theorem search_ok {e : Engine} (hx : x.Keeps key []) (hroom : 0 < x.capacity) (query : Query) :
    Linked.search (Exchange.connection key) ⟨e, x⟩ query =
      (.ok e.nextRequest, ⟨{ e with nextRequest := e.nextRequest + 1 }, x.setMailbox key
        { events := [.searchResult e.nextRequest ((x.matching query).map (·.1))] }⟩) := by
  simp only [Linked.search, Linked.request, Exchange.connection, Exchange.submit,
    Exchange.respond_of_keeps hx hroom]
  rfl

/-- The market behind the client's search. -/
def searching (p : Plan) (start : String → UInt32) (l : List StationPlan) (m : Market) : Market :=
  m.put p.client ⟨{ home := .ofKey p.client, table := .new p.limits (start p.client), nextRequest := 2 },
    (m.exchange.setMailbox p.client { events := [] }).setMailbox p.client
      { events := [.searchResult 1 (l.map StationPlan.address)] }⟩ (.client (Weather.Client.expect {} 1))

/-- The client is connected and its search answered. -/
theorem addClient_ok (start : String → UInt32) (ha : Admissible p) (h : Registered p p.stations m)
    (hfound : (m.exchange.matching Weather.Client.query).map (·.1) = l.map StationPlan.address) :
    m.addClient p.limits start p.client = .ok (searching p start l m) := by
  have hconnect := connect_ok ha.client (h.strangers _ ha.client_not_mem).1 ha.limits (start p.client)
  have hsearch := search_ok (e := { home := .ofKey p.client, table := .new p.limits (start p.client) })
    (Exchange.keeps_setMailbox m.exchange p.client []) (h.capacity ▸ by decide) Weather.Client.query
  rw [show ((m.exchange.setMailbox p.client { events := [] }).matching Weather.Client.query).map (·.1) = _
    from hfound] at hsearch
  simp only [addClient, hconnect, Result.ok_bind, hsearch]
  rfl

/-- Setting up succeeds. The stations are registered, and the search finds them all. -/
theorem setUp_ok (ha : Admissible p) (start : String → UInt32) :
    ∃ m l, Registered p p.stations m ∧ l.Perm p.stations ∧ setUp p start = .ok (searching p start l m) := by
  obtain ⟨m, hstations, hm⟩ := addStations_ok start ha (registered_nil p) (List.nil_append _)
  obtain ⟨l, hfound, hl⟩ := hm.found ha
  refine ⟨m, l, hm, hl, ?_⟩
  rw [setUp, hstations]
  exact addClient_ok start ha hm hfound

/-! ### The market behind it -/

/-- Everybody is at the market: the client and the stations are connected, each with an engine under the
limits of the plan; each station has its service on offer, as it describes it, and nothing else is; and
the answer to the client's search names all stations. -/
structure Prepared (p : Plan) (m : Market) : Prop where
  connected : ∀ key, m.exchange.isConnected key ↔ key ∈ p.client :: p.stations.map (·.key)
  client : ∃ e, m.members.get? p.client = some ⟨e, .client (Weather.Client.expect {} 1), true⟩ ∧
    e.home = .ofKey p.client ∧ e.limits = p.limits
  stations : ∀ s ∈ p.stations, ∃ e, m.members.get? s.key = some ⟨e, .station (station s), true⟩ ∧
    e.home = .ofKey s.key ∧ e.limits = p.limits
  services : ∀ key name d, m.exchange.service? key name = some d ↔
    ∃ s ∈ p.stations, s.key = key ∧ name = Weather.serviceName ∧ (station s).description = .ok d
  found : ∃ l : List StationPlan, l.Perm p.stations ∧
    m.exchange.waiting p.client = [.searchResult 1 (l.map StationPlan.address)]

theorem get?_offering {name : String} {d : Description} : (offering s).get? name = some d ↔
    name = Weather.serviceName ∧ (station s).description = .ok d := by
  rw [offering, SortedMap.get?_insert, SortedMap.get?_empty, Weather.Station.description_ok]
  grind

theorem Registered.isConnected_iff (h : Registered p l m) :
    m.exchange.isConnected key ↔ key ∈ l.map (·.key) := by
  constructor
  · intro hconnected
    by_contra hnot
    rw [Exchange.isConnected, Exchange.mailbox?, (h.strangers key hnot).1] at hconnected
    cases hconnected
  · intro hkey
    obtain ⟨s, hs, rfl⟩ := List.mem_map.1 hkey
    exact Exchange.isConnected_of_keeps (h.boxes s hs)

theorem Registered.service?_iff (h : Registered p l m) {name : String} {d : Description} :
    m.exchange.service? key name = some d ↔
      ∃ s ∈ l, s.key = key ∧ name = Weather.serviceName ∧ (station s).description = .ok d := by
  rw [Exchange.service?, Exchange.servicesOf]
  constructor
  · intro hd
    by_cases hkey : key ∈ l.map (·.key)
    · obtain ⟨s, hs, rfl⟩ := List.mem_map.1 hkey
      rw [h.services s hs] at hd
      exact ⟨s, hs, rfl, get?_offering.1 hd⟩
    · rw [(h.strangers key hkey).2] at hd
      cases hd
  · rintro ⟨s, hs, rfl, hd⟩
    rw [h.services s hs]
    exact get?_offering.2 hd

theorem searching_prepared (start : String → UInt32) (ha : Admissible p) (h : Registered p p.stations m)
    (hl : l.Perm p.stations) : Prepared p (searching p start l m) where
  connected key := by
    rw [List.mem_cons, ← h.isConnected_iff]
    simp only [searching, Network.put, Exchange.isConnected_setMailbox]
    grind
  client := ⟨_, get?_put_self .., rfl, rfl⟩
  stations s hs := by
    obtain ⟨e, hm, hseat⟩ := h.seats s hs
    refine ⟨e, ?_, hseat.home, hseat.limits⟩
    rw [searching, Network.put, SortedMap.get?_insert, if_neg (Ne.symm (ha.key_ne hs))]
    exact hm
  services _ _ _ := h.service?_iff
  found := ⟨l, hl, Exchange.waiting_of_keeps (Exchange.keeps_setMailbox ..)⟩

theorem searching_underway (start : String → UInt32) (hv : Viable p) (h : Registered p p.stations m)
    (hl : l.Perm p.stations) :
    Underway p (p.stations.length * 3 + 2) (searching p start l m) := by
  have hother : ∀ s ∈ p.stations, ∀ {α : Type} (f : SortedMap String α) (a : α),
      (f.insert p.client a).get? s.key = f.get? s.key := fun s hs α f a => by
    rw [SortedMap.get?_insert, if_neg (Ne.symm (hv.keys s hs).2)]
  suffices h' : World p (fun _ => 0) (fun _ => .found) [] _
      ((searching p start l m).exchange.setMailbox p.client { events := [] })
      (searching p start l m).members from
    .ready (get?_put_self ..) hl (Exchange.keeps_setMailbox ..) h'
  refine ⟨?_, ?_, ?_⟩
  · refine ⟨rfl, rfl, ?_, by rintro s hs st a ⟨⟩⟩
    rw [tally_const (n := 0) fun _ _ => rfl]
    rfl
  · intro s hs
    obtain ⟨e, hm, hseat⟩ := h.seats s hs
    exact ⟨e, station s, (hother s hs ..).trans hm, hseat⟩
  · refine ⟨h.capacity, ⟨[], Exchange.keeps_setMailbox .., .nil⟩, .nil, by simp, fun s hs => ?_,
      fun s hs => ?_, fun key hc hk => ?_⟩
    · exact iff_of_false List.not_mem_nil (by rintro ⟨⟩)
    · have hne := Ne.symm (hv.keys s hs).2
      exact ⟨[], (((h.boxes s hs).setMailbox_ne hne _).setMailbox_ne hne _).setMailbox_ne hne _, .nil⟩
    · have hkey : key ∉ p.stations.map (·.key) := fun hmem => by
        obtain ⟨s, hs, hkey⟩ := List.mem_map.1 hmem
        exact hk s hs hkey
      simp only [searching, Network.put, Exchange.get?_setMailbox, if_neg (Ne.symm hc)]
      exact (h.strangers key hkey).1

/-- Setting up succeeds, and the market is under way. -/
theorem setUp_underway (hv : Viable p) (start : String → UInt32) :
    ∃ m, setUp p start = .ok m ∧ Underway p (p.stations.length * 3 + 2) m := by
  obtain ⟨m, l, hm, hl, hsetUp⟩ := setUp_ok hv.admissible start
  exact ⟨searching p start l m, hsetUp, searching_underway start hv hm hl⟩

/-- SET UP: a plan is accepted just when it is runnable, and however many stations it has and wherever the
    numbers of the agents' dialogues start, a market whose plan is accepted is set up without a failure:
    everybody is connected, every service is registered, and the search finds all stations. -/
theorem set_up_whenever_accepted (p : Plan) :
    (p.validate = .ok () ↔ p.Runnable) ∧
    (p.validate = .ok () → ∀ start : String → UInt32, ∃ m, setUp p start = .ok m ∧ Prepared p m) := by
  refine ⟨Plan.validate_eq_ok_iff, fun hp start => ?_⟩
  have ha := admissible_of_runnable (Plan.validate_eq_ok_iff.1 hp)
  obtain ⟨m, l, hm, hl, hsetUp⟩ := setUp_ok ha start
  exact ⟨searching p start l m, hsetUp, searching_prepared start ha hm hl⟩

/-- A station that asks for nothing and one that says where it is, under limits that keep no dialogue and
hold fewer than there are stations. -/
theorem two_stations_set_up :
    let p : Plan := {
      client := "Buyer1"
      stations := [{ key := "Station1", price := 0 },
        { key := "Station2", price := 50, latitude := some 51.5, longitude := some (-0.1) }]
      timeout := 1
      limits := { retention := 0, maxDialogues := 1 } }
    p.validate = .ok () ∧ p.Runnable ∧ ∃ m, setUp p (fun _ => 4294967295) = .ok m ∧ Prepared p m ∧
      m.exchange.isConnected "Station2" ∧ (m.exchange.service? "Station2" "weather").isSome := by
  intro p
  obtain ⟨haccepted, hsetUp⟩ := set_up_whenever_accepted p
  have hp : p.validate = .ok () := by decide +kernel
  obtain ⟨m, hm, hprepared⟩ := hsetUp hp fun _ => 4294967295
  have hconnected := (hprepared.connected "Station2").2 (by simp [p])
  have hservice := (hprepared.services "Station2" "weather" _).2
    ⟨_, List.mem_cons_of_mem _ List.mem_cons_self, rfl, rfl, Weather.Station.description_ok _⟩
  exact ⟨hp, haccepted.1 hp, m, hm, hprepared, hconnected, hservice ▸ rfl⟩

end Market

end Negotiation
