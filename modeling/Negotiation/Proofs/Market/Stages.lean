import Mathlib.Algebra.GroupWithZero.Nat
import Mathlib.Data.List.Forall2
import Mathlib.Logic.Function.Basic
import Negotiation.Market
import Negotiation.Proofs.Agent.Letters
import Negotiation.Proofs.Weather.Station

/-!
The deals of a market. A client has one deal with each station, and the stage of a deal tells where
the two agents stand in its dialogue and which message is on its way. A market in which all deals are
at given stages is seen from three sides: the client's dialogues (`Calls`), the stations (`Seats`) and
the mailboxes (`Posts`). Each side depends on the stages only through what it shows of them, so an
event that moves one deal on concerns few of them.
-/

namespace Negotiation

/-- The address under which a station is found. -/
def StationPlan.address (s : StationPlan) : Address :=
  (Address.ofKey s.key).withLabel Weather.serviceName

theorem StationPlan.text_address (s : StationPlan) : s.address.text = s.key ++ "/weather" := by
  have hlabel : Address.labelOf Weather.serviceName = some Weather.serviceName := if_neg (by decide)
  rw [address, Address.withLabel, Address.text, hlabel]
  change s.key ++ "/" ++ Weather.serviceName = _
  rw [String.append_assoc]
  rfl

namespace Market

/-- How far the deal with a station has come. -/
inductive Stage where
  /-- The station is known. -/
  | found
  /-- The call is on its way. -/
  | called
  | asked
  /-- The offer is on its way. -/
  | offered
  | held
  /-- The acceptance is on its way. -/
  | chosen
  | won
  /-- The measurement is on its way; the station has still to complete. -/
  | delivered
  | served
  | received
  | bought
  /-- The refusal is on its way. -/
  | dismissed
  | refused
  deriving DecidableEq

namespace Stage

/-- Where the client stands. -/
def client? : Stage → Option (State × AnswerId)
  | .found => none
  | .called | .asked | .offered => some (.cfpSent, 1)
  | .held => some (.proposalReceived, 2)
  | .chosen | .won | .delivered | .served => some (.accepted, 3)
  | .received => some (.accepted, 4)
  | .bought => some (.closed .completed, 4)
  | .dismissed | .refused => some (.closed .declined, 3)

/-- Where the station stands. -/
def station? : Stage → Option (State × AnswerId)
  | .found | .called => none
  | .asked => some (.cfpReceived, 1)
  | .offered | .held | .chosen | .dismissed => some (.proposalSent, 2)
  | .won => some (.accepted, 3)
  | .delivered => some (.accepted, 4)
  | .served | .received | .bought => some (.closed .completed, 4)
  | .refused => some (.closed .declined, 3)

/-- How many measurements the station has sold. -/
def sold : Stage → Nat
  | .won | .delivered | .served | .received | .bought => 1
  | _ => 0

/-- What is on its way to the station. -/
def toStation? : Stage → Option Letter
  | .called => some ⟨1, 0, .cfp (.query Weather.Client.query)⟩
  | .chosen => some ⟨3, 2, .accept⟩
  | .dismissed => some ⟨3, 2, .decline⟩
  | _ => none

/-- What is on its way to the client. -/
def toClient? (price : Int64) : Stage → Option Letter
  | .offered => some ⟨2, 1, .propose (Weather.Station.proposal { price })⟩
  | .delivered | .served => some ⟨4, 3, .message ({} : Weather.Measurement).toBytes⟩
  | _ => none

end Stage

/-- A plan that is valid, and whose stations fit into the client's table and its mailbox. -/
structure Viable (p : Plan) : Prop where
  client : p.client ≠ ""
  keys : ∀ s ∈ p.stations, s.key ≠ "" ∧ s.key ≠ p.client
  nodup : (p.stations.map (·.key)).Nodup
  nonempty : p.stations ≠ []
  limits : p.limits.validate = .ok ()
  room : p.stations.length ≤ p.limits.capacity
  queue : p.stations.length ≤ Exchange.defaultCapacity

section Views

variable {p : Plan} {id : StationPlan → DialogueId} {stage stage' : StationPlan → Stage}
  {order : List StationPlan} {s s' : StationPlan} {t : Stage}

theorem Viable.eq_of_key (hv : Viable p) (hs : s ∈ p.stations) (hs' : s' ∈ p.stations)
    (h : s.key = s'.key) : s = s' :=
  List.inj_on_of_nodup_map hv.nodup hs hs' h

theorem Viable.capacity_pos (hv : Viable p) : 0 < p.limits.capacity :=
  Nat.lt_of_lt_of_le (List.length_pos_iff.2 hv.nonempty) hv.room

/-- The sum over all deals of what counts for each at its stage. -/
def tally (p : Plan) (f : Stage → Nat) (stage : StationPlan → Stage) : Nat :=
  (p.stations.map fun s => f (stage s)).sum

theorem tally_congr {f : Stage → Nat} (h : ∀ s ∈ p.stations, f (stage' s) = f (stage s)) :
    tally p f stage' = tally p f stage := by
  rw [tally, tally, List.map_congr_left h]

theorem tally_const {f : Stage → Nat} {n : Nat} (h : ∀ s ∈ p.stations, f (stage s) = n) :
    tally p f stage = p.stations.length * n := by
  rw [tally, List.map_congr_left h, List.map_const', List.sum_replicate_nat]

/-- The tally when all deals but one count the same. -/
theorem tally_cons {l : List StationPlan} (hl : (s :: l).Perm p.stations) {f : Stage → Nat} {n : Nat}
    (h : ∀ s' ∈ l, f (stage s') = n) : tally p f stage = f (stage s) + (p.stations.length - 1) * n := by
  rw [tally, ← (hl.map _).sum_nat, List.map_cons, List.sum_cons, List.map_congr_left h, List.map_const',
    List.sum_replicate_nat, ← hl.length_eq, List.length_cons, Nat.add_sub_cancel]

/-- One deal moves on: the tally changes by what it counts for. -/
theorem tally_update (hv : Viable p) (hs : s ∈ p.stations) (f : Stage → Nat)
    (stage : StationPlan → Stage) (t : Stage) :
    tally p f (Function.update stage s t) + f (stage s) = tally p f stage + f t := by
  have hperm := List.perm_cons_erase hs
  have hnodup : p.stations.Nodup := hv.nodup.of_map
  have hrest : ∀ s' ∈ p.stations.erase s, Function.update stage s t s' = stage s' := by
    intro s' hs'
    refine Function.update_of_ne ?_ _ _
    rintro rfl
    exact hnodup.not_mem_erase hs'
  have hsum : ∀ g : StationPlan → Stage, tally p f g =
      f (g s) + ((p.stations.erase s).map fun s => f (g s)).sum := fun g => by
    rw [tally, (hperm.map _).sum_nat, List.map_cons, List.sum_cons]
  rw [hsum, hsum, Function.update_self, List.map_congr_left fun s' hs' => by rw [hrest s' hs']]
  omega

/-- A tally of at most one for each deal is below their number, if one deal does not count. -/
theorem tally_lt (hs : s ∈ p.stations) {f : Stage → Nat} (hle : ∀ t, f t ≤ 1) (h0 : f (stage s) = 0) :
    tally p f stage < p.stations.length := by
  have hle_length : ∀ l : List StationPlan, (l.map fun s => f (stage s)).sum ≤ l.length := by
    intro l
    induction l with
    | nil => exact Nat.le_refl 0
    | cons a l ih =>
      have ha := hle (stage a)
      rw [List.map_cons, List.sum_cons, List.length_cons]
      omega
  have hperm := List.perm_cons_erase hs
  have hrest := hle_length (p.stations.erase s)
  rw [tally, (hperm.map _).sum_nat, hperm.length_eq, List.map_cons, List.sum_cons, List.length_cons, h0]
  omega

/-- What a deal shows stays when it moves on without a change of it. -/
theorem view_update {α : Type} (f : Stage → α) (h : f t = f (stage s)) (s' : StationPlan) :
    f (Function.update stage s t s') = f (stage s') := by
  by_cases hk : s' = s
  · rw [hk, Function.update_self, h]
  · rw [Function.update_of_ne hk]

/-! ### The client's dialogues -/

/-- The client holds a dialogue with each station that is called. -/
structure Calls (p : Plan) (id : StationPlan → DialogueId) (stage : StationPlan → Stage)
    (client : Engine) : Prop where
  home : client.home = .ofKey p.client
  limits : client.table.limits = p.limits
  size : client.table.size = tally p (fun t => t.client?.toList.length) stage
  held : ∀ s ∈ p.stations, ∀ st a, (stage s).client? = some (st, a) →
    ∃ d, client.table.get? (id s) = some d ∧ d.Stands client.home s.key (id s) st a ∧
      d.counterparty = s.address

namespace Calls

variable {client : Engine}

theorem congr (h : Calls p id stage client)
    (hst : ∀ s ∈ p.stations, (stage' s).client? = (stage s).client?) : Calls p id stage' client where
  home := h.home
  limits := h.limits
  size := by
    rw [h.size, tally_congr fun s hs => by rw [hst s hs]]
  held s hs st a ha := h.held s hs st a (hst s hs ▸ ha)

/-- Deals of one number are deals with one station. -/
theorem eq_of_id (h : Calls p id stage client) (hv : Viable p) (hs : s ∈ p.stations)
    (hs' : s' ∈ p.stations) (hc : (stage s).client?.isSome) (hc' : (stage s').client?.isSome)
    (hid : id s = id s') : s = s' := by
  obtain ⟨⟨st, a⟩, hst⟩ := Option.isSome_iff_exists.1 hc
  obtain ⟨⟨st', a'⟩, hst'⟩ := Option.isSome_iff_exists.1 hc'
  obtain ⟨d, hd, -, hp⟩ := h.held s hs st a hst
  obtain ⟨d', hd', -, hp'⟩ := h.held s' hs' st' a' hst'
  rw [← hid, hd] at hd'
  obtain rfl := Option.some.inj hd'
  exact hv.eq_of_key hs hs' (congrArg Address.key (hp.symm.trans hp'))

/-- One dialogue moves on. -/
theorem put (h : Calls p id stage client) (hv : Viable p) (hs : s ∈ p.stations)
    (hc : (stage s).client?.isSome) {st : State} {a : AnswerId} (ht : t.client? = some (st, a))
    {d : Dialogue} (hd : d.Stands client.home s.key (id s) st a) (hp : d.counterparty = s.address) :
    Calls p id (Function.update stage s t) (client.put d) := by
  obtain ⟨⟨st₀, a₀⟩, hst₀⟩ := Option.isSome_iff_exists.1 hc
  obtain ⟨d₀, hd₀, -, -⟩ := h.held s hs st₀ a₀ hst₀
  refine ⟨h.home, h.limits, ?_, ?_⟩
  · have hsize : (client.put d).table.size = client.table.size :=
      SortedMap.size_insert_of_some d (show client.table.get? d.id = some d₀ from hd.id ▸ hd₀)
    have htally := tally_update hv hs (fun t => t.client?.toList.length) stage t
    rw [hst₀, ht] at htally
    rw [hsize, h.size]
    exact (Nat.add_right_cancel htally).symm
  · intro s' hs' st' a' hst'
    rw [Engine.get?_put, hd.id]
    by_cases hk : s' = s
    · subst hk
      rw [Function.update_self, ht] at hst'
      cases hst'
      exact ⟨d, if_pos rfl, hd, hp⟩
    · rw [Function.update_of_ne hk] at hst'
      have hne : id s ≠ id s' := fun hid => hk (h.eq_of_id hv hs hs' hc (hst' ▸ rfl) hid).symm
      rw [if_neg hne]
      exact h.held s' hs' st' a' hst'

/-- A new dialogue is opened. -/
theorem opened (h : Calls p id stage client) (hv : Viable p) (hs : s ∈ p.stations)
    (hc : stage s = .found) {i : DialogueId} (hi : client.table.get? i = none) (alloc : Allocator)
    (now : Millis) : Calls p (Function.update id s i) (Function.update stage s .called)
      ((client.allocating alloc).put ((Dialogue.new i s.address .initiator now).sent now .cfpSent)) := by
  refine ⟨h.home, h.limits, ?_, ?_⟩
  · have hsize : ((client.allocating alloc).put
        ((Dialogue.new i s.address .initiator now).sent now .cfpSent)).table.size = client.table.size + 1 :=
      SortedMap.size_insert_of_none _ hi
    have htally := tally_update hv hs (fun t => t.client?.toList.length) stage .called
    rw [hc] at htally
    rw [hsize, h.size]
    exact htally.symm
  · intro s' hs' st' a' hst'
    rw [Engine.get?_put]
    by_cases hk : s' = s
    · subst hk
      rw [Function.update_self] at hst' ⊢
      cases hst'
      refine ⟨_, if_pos rfl, ⟨rfl, rfl, rfl, rfl, (hv.keys s' hs').1, ?_⟩, rfl⟩
      rintro r ⟨⟩
    · rw [Function.update_of_ne hk] at hst' ⊢
      obtain ⟨d, hd, hrest⟩ := h.held s' hs' st' a' hst'
      have hne : i ≠ id s' := fun hi' => absurd (hi.symm.trans (hi' ▸ hd)) (by simp)
      exact ⟨d, (if_neg hne).trans hd, hrest⟩

end Calls

/-! ### The stations -/

/-- The engine and the memory of a station. -/
structure Seat (p : Plan) (s : StationPlan) (id : DialogueId) (t : Stage) (e : Engine)
    (w : Weather.Station) : Prop where
  home : e.home = .ofKey s.key
  limits : e.table.limits = p.limits
  price : w.price = s.price
  measurement : w.measurement = {}
  served : w.served = t.sold
  fresh : t.station? = none → e.table.size = 0
  stands : ∀ st a, t.station? = some (st, a) →
    ∃ d, e.table.get? id = some d ∧ d.Stands e.home p.client id st a

/-- Every station is there and stands as it should. -/
def Seats (p : Plan) (id : StationPlan → DialogueId) (stage : StationPlan → Stage)
    (members : SortedMap String (Member Application)) : Prop :=
  ∀ s ∈ p.stations, ∃ e w, members.get? s.key = some ⟨e, .station w, true⟩ ∧
    Seat p s (id s) (stage s) e w

namespace Seats

variable {members : SortedMap String (Member Application)} {id' : StationPlan → DialogueId}

theorem congr (h : Seats p id stage members)
    (hst : ∀ s ∈ p.stations, (stage' s).station? = (stage s).station? ∧
      (stage' s).sold = (stage s).sold)
    (hid : ∀ s ∈ p.stations, (stage s).station?.isSome → id' s = id s) :
    Seats p id' stage' members := by
  intro s hs
  obtain ⟨e, w, hm, hseat⟩ := h s hs
  obtain ⟨hst, hsold⟩ := hst s hs
  refine ⟨e, w, hm, hseat.home, hseat.limits, hseat.price, hseat.measurement, hsold ▸ hseat.served,
    hst ▸ hseat.fresh, ?_⟩
  intro st a ha
  rw [hst] at ha
  rw [hid s hs (ha ▸ rfl)]
  exact hseat.stands st a ha

/-- One station moves on. -/
theorem put (h : Seats p id stage members) (hv : Viable p) (hs : s ∈ p.stations) {e : Engine}
    {w : Weather.Station} (hseat : Seat p s (id s) t e w) :
    Seats p id (Function.update stage s t) (members.insert s.key ⟨e, .station w, true⟩) := by
  intro s' hs'
  rw [SortedMap.get?_insert]
  by_cases hk : s' = s
  · subst hk
    rw [Function.update_self]
    exact ⟨e, w, if_pos rfl, hseat⟩
  · rw [Function.update_of_ne hk, if_neg fun hkey => hk (hv.eq_of_key hs hs' hkey).symm]
    exact h s' hs'

/-- The client's memory is no concern of the stations. -/
theorem put_client (h : Seats p id stage members) (hv : Viable p) (m : Member Application) :
    Seats p id stage (members.insert p.client m) := by
  intro s hs
  rw [SortedMap.get?_insert, if_neg (Ne.symm (hv.keys s hs).2)]
  exact h s hs

end Seats

/-! ### The mailboxes -/

/-- An event brings what a station has on its way to the client. -/
def Waits (id : StationPlan → DialogueId) (stage : StationPlan → Stage) (s : StationPlan) (e : Event) :
    Prop :=
  ∃ l, (stage s).toClient? s.price = some l ∧ l.Arrives s.key (id s) e

/-- The mailboxes hold what is on its way and nothing else; `order` lists the stations whose messages
wait for the client. -/
structure Posts (p : Plan) (id : StationPlan → DialogueId) (stage : StationPlan → Stage)
    (order : List StationPlan) (x : Exchange) : Prop where
  capacity : x.capacity = Exchange.defaultCapacity
  queue : ∃ events, x.Keeps p.client events ∧ List.Forall₂ (Waits id stage) order events
  nodup : order.Nodup
  known : ∀ s ∈ order, s ∈ p.stations
  waits : ∀ s ∈ p.stations, s ∈ order ↔ ((stage s).toClient? s.price).isSome
  boxes : ∀ s ∈ p.stations, ∃ events, x.Keeps s.key events ∧
    List.Forall₂ (fun l e => l.Arrives p.client (id s) e) (stage s).toStation?.toList events
  strangers : ∀ key, key ≠ p.client → (∀ s ∈ p.stations, s.key ≠ key) → x.mailboxes.get? key = none

namespace Posts

variable {x : Exchange} {id' : StationPlan → DialogueId} {ev : Event} {events : List Event} {l : Letter}

/-- What waits for the client stays when another deal moves on. -/
theorem waits_update (hid : ∀ s', s' ≠ s → id' s' = id s') (hnot : s ∉ order)
    (hq : List.Forall₂ (Waits id stage) order events) :
    List.Forall₂ (Waits id' (Function.update stage s t)) order events := by
  induction hq with
  | nil => exact .nil
  | cons hw _ ih =>
    obtain ⟨hne, hnot⟩ := not_or.1 (List.mem_cons.not.1 hnot)
    obtain ⟨l, hl, ha⟩ := hw
    refine .cons ⟨l, ?_, ?_⟩ (ih hnot)
    · rw [Function.update_of_ne (Ne.symm hne), hl]
    · rw [hid _ (Ne.symm hne)]
      exact ha

theorem not_mem_of_toClient?_eq_none (h : Posts p id stage order x) (hs : s ∈ p.stations)
    (hnone : (stage s).toClient? s.price = none) : s ∉ order := fun hs' => by
  have hsome := (h.waits s hs).1 hs'
  rw [hnone] at hsome
  cases hsome

/-- There is room in the client's mailbox for each station that has nothing in it. -/
theorem room (h : Posts p id stage order x) (hv : Viable p) (hs : s ∈ p.stations)
    (hnone : (stage s).toClient? s.price = none) : order.length < x.capacity := by
  have hnodup := List.nodup_cons.2 ⟨h.not_mem_of_toClient?_eq_none hs hnone, h.nodup⟩
  have hle := (hnodup.subperm (List.cons_subset.2 ⟨hs, h.known⟩)).length_le
  have hqueue := hv.queue
  rw [List.length_cons] at hle
  rw [h.capacity]
  omega

theorem congr (h : Posts p id stage order x)
    (hst : ∀ s ∈ p.stations, (stage' s).toStation? = (stage s).toStation? ∧
      (stage' s).toClient? s.price = (stage s).toClient? s.price) : Posts p id stage' order x where
  capacity := h.capacity
  queue := by
    obtain ⟨events, hkeep, hq⟩ := h.queue
    refine ⟨events, hkeep, ?_⟩
    have hknown := h.known
    clear h hkeep
    induction hq with
    | nil => exact .nil
    | cons hw _ ih =>
      rw [List.forall_mem_cons] at hknown
      obtain ⟨l, hl, ha⟩ := hw
      exact .cons ⟨l, (hst _ hknown.1).2.trans hl, ha⟩ (ih hknown.2)
  nodup := h.nodup
  known := h.known
  waits s hs := by rw [h.waits s hs, (hst s hs).2]
  boxes s hs := by
    rw [(hst s hs).1]
    exact h.boxes s hs
  strangers := h.strangers

/-- The mailbox of a station changes, and nothing of the deal is on its way to the client. -/
theorem setStation (h : Posts p id stage order x) (hv : Viable p) (hs : s ∈ p.stations)
    (hid : ∀ s', s' ≠ s → id' s' = id s') (hnone : (stage s).toClient? s.price = none)
    (ht : t.toClient? s.price = none)
    (hbox : List.Forall₂ (fun l e => l.Arrives p.client (id' s) e) t.toStation?.toList events) :
    Posts p id' (Function.update stage s t) order (x.setMailbox s.key { events }) where
  capacity := h.capacity
  queue := by
    obtain ⟨waiting, hkeep, hq⟩ := h.queue
    have hnot := h.not_mem_of_toClient?_eq_none hs hnone
    exact ⟨waiting, hkeep.setMailbox_ne (hv.keys s hs).2 _, waits_update hid hnot hq⟩
  nodup := h.nodup
  known := h.known
  waits s' hs' := by
    rw [h.waits s' hs']
    by_cases hk : s' = s
    · rw [hk, Function.update_self, hnone, ht]
    · rw [Function.update_of_ne hk]
  boxes s' hs' := by
    by_cases hk : s' = s
    · subst hk
      rw [Function.update_self]
      exact ⟨events, Exchange.keeps_setMailbox .., hbox⟩
    · rw [Function.update_of_ne hk, hid s' hk]
      obtain ⟨events', hkeep, hb⟩ := h.boxes s' hs'
      exact ⟨events', hkeep.setMailbox_ne (fun hkey => hk (hv.eq_of_key hs hs' hkey).symm) _, hb⟩
  strangers key hc hk := by
    rw [Exchange.get?_setMailbox, if_neg (hk s hs)]
    exact h.strangers key hc hk

/-- The mailboxes of the stations stay when a deal moves on with the same message on its way. -/
theorem boxes_update (h : Posts p id stage order x) (hv : Viable p) (b : Mailbox)
    (hst : t.toStation? = (stage s).toStation?) : ∀ s' ∈ p.stations, ∃ events,
      (x.setMailbox p.client b).Keeps s'.key events ∧ List.Forall₂
        (fun l e => l.Arrives p.client (id s') e) (Function.update stage s t s').toStation?.toList
        events := by
  intro s' hs'
  obtain ⟨events, hkeep, hb⟩ := h.boxes s' hs'
  refine ⟨events, hkeep.setMailbox_ne (Ne.symm (hv.keys s' hs').2) _, ?_⟩
  by_cases hk : s' = s
  · subst hk
    rwa [Function.update_self, hst]
  · rwa [Function.update_of_ne hk]

theorem strangers_update (h : Posts p id stage order x) (b : Mailbox) (key : String)
    (hc : key ≠ p.client) (hk : ∀ s ∈ p.stations, s.key ≠ key) :
    (x.setMailbox p.client b).mailboxes.get? key = none := by
  rw [Exchange.get?_setMailbox, if_neg (Ne.symm hc)]
  exact h.strangers key hc hk

/-- A station writes to the client. -/
theorem write (h : Posts p id stage order x) (hv : Viable p) (hs : s ∈ p.stations)
    (hnone : (stage s).toClient? s.price = none) (ht : t.toClient? s.price = some l)
    (hst : t.toStation? = (stage s).toStation?) (hkeep : x.Keeps p.client events)
    (hl : l.Arrives s.key (id s) ev) : Posts p id (Function.update stage s t) (order ++ [s])
      (x.setMailbox p.client { events := events ++ [ev] }) where
  capacity := h.capacity
  queue := by
    obtain ⟨events', hkeep', hq⟩ := h.queue
    obtain rfl := hkeep.eq hkeep'
    refine ⟨_, Exchange.keeps_setMailbox .., ?_⟩
    have hnot := h.not_mem_of_toClient?_eq_none hs hnone
    refine List.rel_append (waits_update (fun _ _ => rfl) hnot hq) ?_
    exact .cons ⟨l, by rw [Function.update_self, ht], hl⟩ .nil
  nodup := List.nodup_append.2 ⟨h.nodup, List.nodup_singleton s, by
    intro a ha b hb
    obtain rfl := List.mem_singleton.1 hb
    rintro rfl
    exact h.not_mem_of_toClient?_eq_none hs hnone ha⟩
  known s' hs' := by
    rcases List.mem_append.1 hs' with hs' | hs'
    · exact h.known s' hs'
    · exact List.mem_singleton.1 hs' ▸ hs
  waits s' hs' := by
    rw [List.mem_append, List.mem_singleton]
    by_cases hk : s' = s
    · subst hk
      rw [Function.update_self, ht]
      exact iff_of_true (.inr rfl) rfl
    · rw [Function.update_of_ne hk, h.waits s' hs', or_iff_left hk]
  boxes := h.boxes_update hv _ hst
  strangers := h.strangers_update _

/-- A station takes what waits for it and has room to write to the client, whatever it then writes. -/
theorem turned (h : Posts p id stage order x) (hv : Viable p) (hs : s ∈ p.stations)
    (hnone : (stage s).toClient? s.price = none) : ∃ events,
      (x.setMailbox s.key { events := [] }).Keeps p.client events ∧ events.length < x.capacity ∧
      ∀ {t l ev}, t.toStation? = none → t.toClient? s.price = some l → l.Arrives s.key (id s) ev →
        Posts p id (Function.update stage s t) (order ++ [s])
          ((x.setMailbox s.key { events := [] }).setMailbox p.client { events := events ++ [ev] }) := by
  -- in between nothing of the deal is on its way
  have htaken : Posts p id (Function.update stage s .asked) order
      (x.setMailbox s.key { events := [] }) :=
    h.setStation hv hs (fun _ _ => rfl) hnone rfl .nil
  have hasked : (Function.update stage s .asked s).toClient? s.price = none := by
    rw [Function.update_self]
    rfl
  obtain ⟨events, hkeep, hq⟩ := htaken.queue
  refine ⟨events, hkeep, hq.length_eq ▸ htaken.room hv hs hasked, fun {t l ev} hto hfrom hl => ?_⟩
  have hst : t.toStation? = (Function.update stage s .asked s).toStation? := by
    rw [Function.update_self, hto]
    rfl
  have hwritten := htaken.write hv hs hasked hfrom hst hkeep hl
  rwa [Function.update_idem] at hwritten

/-- The client takes the first message that waits for it. -/
theorem read (h : Posts p id stage (s :: order) x) (hv : Viable p) (ht : t.toClient? s.price = none)
    (hst : t.toStation? = (stage s).toStation?) (hkeep : x.Keeps p.client (ev :: events)) :
    Posts p id (Function.update stage s t) order (x.setMailbox p.client { events }) := by
  obtain ⟨hnot, hnodup⟩ := List.nodup_cons.1 h.nodup
  refine ⟨h.capacity, ⟨events, Exchange.keeps_setMailbox .., ?_⟩, hnodup,
    fun s' hs' => h.known s' (List.mem_cons_of_mem _ hs'), ?_, h.boxes_update hv _ hst,
    h.strangers_update _⟩
  · obtain ⟨events', hkeep', hq⟩ := h.queue
    obtain rfl := hkeep.eq hkeep'
    cases hq with
    | cons _ hq => exact waits_update (fun _ _ => rfl) hnot hq
  · intro s' hs'
    by_cases hk : s' = s
    · subst hk
      rw [Function.update_self, ht]
      exact iff_of_false hnot (by simp)
    · rw [Function.update_of_ne hk, ← h.waits s' hs', List.mem_cons, or_iff_right hk]

/-- The first event that waits for a station brings what is on its way to it. -/
theorem letter_of_waiting (h : Posts p id stage order x) (hs : s ∈ p.stations)
    (hw : x.waiting s.key ≠ []) : ∃ l ev, (stage s).toStation? = some l ∧ x.Keeps s.key [ev] ∧
      l.Arrives p.client (id s) ev := by
  obtain ⟨events, hkeep, hb⟩ := h.boxes s hs
  rw [Exchange.waiting_of_keeps hkeep] at hw
  cases hl : (stage s).toStation? with
  | none =>
    rw [hl] at hb
    cases hb
    exact absurd rfl hw
  | some l =>
    rw [hl] at hb
    cases hb with
    | cons ha hrest =>
      cases hrest
      exact ⟨l, _, rfl, hkeep, ha⟩

/-- When no event waits nothing is on its way. -/
theorem nothing (h : Posts p id stage order x) (hw : ∀ key, x.waiting key = []) : ∀ s ∈ p.stations,
    (stage s).toStation? = none ∧ (stage s).toClient? s.price = none := by
  intro s hs
  constructor
  · obtain ⟨events, hkeep, hb⟩ := h.boxes s hs
    obtain rfl := (Exchange.waiting_of_keeps hkeep).symm.trans (hw s.key)
    exact Option.toList_eq_nil_iff.1 (List.forall₂_nil_right_iff.1 hb)
  · obtain ⟨events, hkeep, hq⟩ := h.queue
    obtain rfl := (Exchange.waiting_of_keeps hkeep).symm.trans (hw p.client)
    obtain rfl := List.forall₂_nil_right_iff.1 hq
    rw [← Option.not_isSome_iff_eq_none, ← h.waits s hs]
    exact List.not_mem_nil

end Posts

end Views

end Market

end Negotiation
