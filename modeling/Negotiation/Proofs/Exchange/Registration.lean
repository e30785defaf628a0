import Mathlib.Data.List.Induction
import Negotiation.Proofs.Exchange.Delivery

/-!
What is registered, as the history of a broker tells it. A call says one of three things of a service: it
registers it, it ends it, since the agent takes it back or leaves, or it passes it by
(`says_call`). Main statement (`service?_run_iff`): a service is there with a description exactly
when its last registration was with that one, and nothing after it ended the service.
-/

namespace Negotiation.Exchange

variable {x y z : Exchange} {key other dest name : String} {d : Description} {e : Event} {c : Call}
  {cs : List Call}

/-- A call registers a service of an agent. -/
def Call.Registers (c : Call) (key name : String) (d : Description) : Prop :=
  ∃ id route, c = .request key (.register id route d) ∧ route.service = name

/-- A call takes a service of an agent back, and the agent is not told that there is none. -/
def Withdraws (x : Exchange) (c : Call) (key name : String) : Prop :=
  ∃ id route d, c = .request key (.unregister id route d) ∧ route.service = name ∧
    (x.submit key (.unregister id route d)).1 = .ok () ∧ (x.call c).waiting key = x.waiting key

/-- An agent was connected before a call, and is not behind it. -/
def Leaves (x : Exchange) (c : Call) (key : String) : Prop :=
  x.isConnected key ∧ ¬ (x.call c).isConnected key

/-- A call says nothing of a service. -/
structure Passes (x : Exchange) (c : Call) (key name : String) : Prop where
  unregistered : ∀ d, ¬ c.Registers key name d
  kept : ¬ x.Withdraws c key name
  stays : ¬ x.Leaves c key

/-- A service was registered in a run, and all calls after that passed it by. -/
def OnOffer (x : Exchange) (cs : List Call) (key name : String) (d : Description) : Prop :=
  ∃ before c, before ++ [c] <+: cs ∧ c.Registers key name d ∧
    ∀ us c', before ++ [c] <+: us → us ++ [c'] <+: cs → (x.run us).Passes c' key name

/-! ### Connections and services -/

theorem isConnected_abandon (x : Exchange) (key other : String) :
    (x.abandon key).isConnected other = x.isConnected other := by
  rw [abandon]
  split
  · next b hb => exact isConnected_setEvents hb { b with events := [], reading := false } rfl other
  · rfl

theorem isConnected_take (x : Exchange) (key other : String) :
    (x.take key).2.isConnected other = x.isConnected other := by
  rw [take]
  split
  · next b hb =>
    split
    · next ev rest _ => exact isConnected_setEvents hb { b with events := rest } rfl other
    · rfl
  · rfl

theorem services_take (x : Exchange) (key : String) : (x.take key).2.services = x.services := by
  rcases x.take_cases key with ht | ⟨b, ev, rest, -, ht⟩ <;> rw [ht]
  rfl

theorem services_abandon (x : Exchange) (key : String) : (x.abandon key).services = x.services := by
  rw [abandon]
  split <;> rfl

/-- What one request says of a service of one agent is nothing to other services. -/
theorem service?_offers (x : Exchange) (key other name : String) (offers : SortedMap String Description) :
    service? { x with services := x.services.insert key offers } other name =
      if key = other then offers.get? name else x.service? other name := by
  rw [service?, servicesOf, SortedMap.get?_insert]
  split <;> rfl

theorem mem_allServices_iff : (key, name, d) ∈ x.allServices ↔ x.service? key name = some d := by
  rw [allServices, List.mem_flatMap]
  constructor
  · rintro ⟨⟨key', offers⟩, hoffers, hone⟩
    obtain ⟨⟨name', d'⟩, hd, heq⟩ := List.mem_map.1 hone
    cases heq
    rw [service?, servicesOf, SortedMap.mem_toList_iff.1 hoffers]
    exact SortedMap.mem_toList_iff.1 hd
  · intro hs
    rw [service?, servicesOf] at hs
    cases hoffers : x.services.get? key with
    | none =>
      rw [hoffers] at hs
      cases hs
    | some offers =>
      rw [hoffers] at hs
      exact ⟨(key, offers), SortedMap.mem_toList_iff.2 hoffers,
        List.mem_map.2 ⟨(name, d), SortedMap.mem_toList_iff.2 hs, rfl⟩⟩

/-! ### Responses -/

/-- An agent is told what it asked for exactly when it takes events and has room. -/
theorem respond_eq_ok_iff : (x.respond key e).1 = .ok () ↔ x.Present key ∧ ¬ x.Full key := by
  rw [respond]
  by_cases hp : x.Present key
  case neg =>
    rw [post_of_absent hp]
    simp [hp]
  by_cases hf : x.Full key
  · rw [post_of_full hp hf]
    simp [hf, overflow]
  · obtain ⟨y, hy, -, -⟩ := post_of_room hp hf e
    rw [hy]
    simp [hp, hf]

theorem appends_of_respond (h : (x.respond key e).1 = .ok ()) : x.Appends (x.respond key e).2 key e := by
  obtain ⟨hp, hf⟩ := respond_eq_ok_iff.1 h
  obtain ⟨y, hy, happ, -⟩ := post_of_room hp hf e
  rw [respond_snd, hy]
  exact happ

/-! ### Agents that leave -/

/-- On the way from one broker to another an agent keeps its services, or it leaves and they go with it. -/
inductive GoesWith (x y : Exchange) (key : String) : Prop
  | stays (hc : y.isConnected key = x.isConnected key) (hs : y.servicesOf key = x.servicesOf key)
  | leaves (hc : x.isConnected key) (hc' : ¬ y.isConnected key) (hs : y.servicesOf key = .empty)

namespace GoesWith

theorem refl (x : Exchange) (key : String) : x.GoesWith x key := .stays rfl rfl

theorem trans (h : x.GoesWith y key) (h' : y.GoesWith z key) : x.GoesWith z key := by
  cases h with
  | stays hc hs =>
    cases h' with
    | stays hc' hs' => exact .stays (hc'.trans hc) (hs'.trans hs)
    | leaves hd hd' hs' => exact .leaves (hc ▸ hd) hd' hs'
  | leaves hc hc' hs =>
    cases h' with
    | stays hd hs' => exact .leaves hc (hd ▸ hc') (hs'.trans hs)
    | leaves hd hd' hs' => exact absurd hd hc'

theorem disconnect (x : Exchange) (dest key : String) : x.GoesWith (x.disconnect dest) key := by
  cases hb : x.mailbox? dest with
  | none =>
    rw [Exchange.disconnect, hb]
    exact .refl x key
  | some b =>
    by_cases hk : dest = key
    · subst hk
      refine .leaves (isConnected_of_mailbox? hb).1 (fun h => ?_) ?_
      · exact ((isConnected_disconnect x dest dest).1 h).2 rfl
      · rw [disconnect_eq hb, servicesOf, SortedMap.get?_erase, if_pos rfl]
        rfl
    · refine .stays (isConnected_congr (mailboxes_disconnect_ne hk)) ?_
      rw [disconnect_eq hb, servicesOf, SortedMap.get?_erase, if_neg hk]
      rfl

theorem post (x : Exchange) (dest : String) (e : Event) (key : String) :
    x.GoesWith (x.post dest e).2 key := by
  rcases x.post_cases dest e with he | ⟨b, -, -, he⟩ | ⟨b, hb, -, he⟩ <;> rw [he]
  · exact .refl x key
  · exact .disconnect x dest key
  · have hbox := (Option.filter_eq_some_iff.1 hb).1
    exact .stays (isConnected_setEvents hbox { b with events := b.events ++ [e] } rfl key) rfl

theorem respond (x : Exchange) (dest : String) (e : Event) (key : String) :
    x.GoesWith (x.respond dest e).2 key :=
  respond_snd x dest e ▸ .post x dest e key

theorem deliver (x : Exchange) (sender : String) (m : Outgoing) (key : String) :
    x.GoesWith (x.deliver sender m).2 key :=
  deliver_keeps (I := fun y => x.GoesWith y key) (fun y dest e h => h.trans (.post y dest e key))
    (.refl x key) sender m

end GoesWith

/-! ### One call -/

theorem withdraws_iff : x.Withdraws c key name ↔
    ∃ id route d, c = .request key (.unregister id route d) ∧ route.service = name ∧
      (x.service? key name).isSome := by
  constructor
  · rintro ⟨id, route, d, rfl, rfl, hok, hwaiting⟩
    refine ⟨id, route, d, rfl, rfl, ?_⟩
    rw [submit, unregister] at hok
    rw [call, submit, unregister] at hwaiting
    split at hok
    · next d₀ hd => exact Option.isSome_of_eq_some hd
    · -- the agent is told, so that one event more waits for it
      next hd =>
      rw [hd, (appends_of_respond hok).1] at hwaiting
      simp at hwaiting
  · rintro ⟨id, route, d, rfl, rfl, hs⟩
    obtain ⟨d₀, hd⟩ := Option.isSome_iff_exists.1 hs
    refine ⟨id, route, d, rfl, rfl, ?_, ?_⟩
    · rw [submit, unregister, hd]
    · rw [call, submit, unregister, hd]
      rfl

/-- What a call says of a service, and what of it is there behind the call. -/
inductive Says (x : Exchange) (c : Call) (key name : String) : Option Description → Prop
  | registers {d : Description} (h : c.Registers key name d) : Says x c key name (some d)
  | ends (h : x.Withdraws c key name ∨ x.Leaves c key) : Says x c key name none
  | passes (h : x.Passes c key name) : Says x c key name (x.service? key name)

section Passing

variable (hreg : ∀ d, ¬ c.Registers key name d) (hkept : ¬ x.Withdraws c key name)
include hreg hkept

/-- A call that leaves a service as it is, and its agent connected, passes it by. -/
theorem says_of_same (hs : (x.call c).service? key name = x.service? key name)
    (hc : x.isConnected key → (x.call c).isConnected key) :
    x.Says c key name ((x.call c).service? key name) := by
  rw [hs]
  exact .passes ⟨hreg, hkept, fun h => h.2 (hc h.1)⟩

theorem GoesWith.says (h : x.GoesWith (x.call c) key) : x.Says c key name ((x.call c).service? key name) := by
  cases h with
  | stays hc hs => exact says_of_same hreg hkept (by rw [service?, hs, service?]) fun h => hc ▸ h
  | leaves hc hc' hs =>
    rw [service?, hs]
    exact .ends (.inr ⟨hc, hc'⟩)

end Passing

theorem says_connect (x : Exchange) (other key name : String) :
    x.Says (.connect other) key name ((x.call (.connect other)).service? key name) := by
  have hreg : ∀ d, ¬ Call.Registers (.connect other) key name d := by rintro d ⟨_, _, ⟨⟩, -⟩
  have hkept : ¬ x.Withdraws (.connect other) key name := by rintro ⟨_, _, _, ⟨⟩, -⟩
  refine says_of_same hreg hkept ?_ fun hc => ?_ <;> rw [call, connect]
  · split
    · rfl
    · split <;> rfl
  · split
    · exact hc
    · split
      · exact hc
      · show (x.setMailbox other {}).isConnected key
        rw [isConnected_setMailbox]
        split
        · rfl
        · exact hc

theorem says_register (x : Exchange) (other : String) (id : RequestId) (route : Route) (d : Description)
    (key name : String) : x.Says (.request other (.register id route d)) key name
      ((x.call (.request other (.register id route d))).service? key name) := by
  have hs : (x.call (.request other (.register id route d))).service? key name =
      if other = key ∧ route.service = name then some d else x.service? key name := by
    rw [call, submit, register, service?_offers, SortedMap.get?_insert]
    by_cases hk : other = key
    · subst hk
      simp only [true_and, if_true]
      rfl
    · simp only [hk, false_and, if_false]
  by_cases hthis : other = key ∧ route.service = name
  · obtain ⟨rfl, rfl⟩ := hthis
    rw [hs, if_pos ⟨rfl, rfl⟩]
    exact .registers ⟨id, route, rfl, rfl⟩
  · rw [if_neg hthis] at hs
    refine says_of_same ?_ ?_ hs fun hc => hc
    · rintro d' ⟨_, _, ⟨⟩, hn⟩
      exact hthis ⟨rfl, hn⟩
    · rintro ⟨_, _, _, ⟨⟩, -⟩

theorem says_unregister (x : Exchange) (other : String) (id : RequestId) (route : Route) (d : Description)
    (key name : String) : x.Says (.request other (.unregister id route d)) key name
      ((x.call (.request other (.unregister id route d))).service? key name) := by
  have hreg : ∀ d', ¬ Call.Registers (.request other (.unregister id route d)) key name d' := by
    rintro d' ⟨_, _, ⟨⟩, -⟩
  cases hold : x.service? other route.service with
  | none =>
    -- there is no such service, and the agent is told so
    refine GoesWith.says hreg (fun h => ?_) ?_
    · obtain ⟨_, _, _, heq, hn, hs⟩ := withdraws_iff.1 h
      cases heq
      rw [← hn, hold] at hs
      cases hs
    · rw [call, submit, unregister, hold]
      exact .respond ..
  | some d₀ =>
    have hs : (x.call (.request other (.unregister id route d))).service? key name =
        if other = key ∧ route.service = name then none else x.service? key name := by
      rw [call, submit, unregister, hold]
      simp only [service?_offers, SortedMap.get?_erase]
      by_cases hk : other = key
      · subst hk
        simp only [true_and, if_true]
        rfl
      · simp only [hk, false_and, if_false]
    by_cases hthis : other = key ∧ route.service = name
    · obtain ⟨rfl, rfl⟩ := hthis
      rw [hs, if_pos ⟨rfl, rfl⟩]
      exact .ends (.inl (withdraws_iff.2 ⟨id, route, d, rfl, rfl, Option.isSome_of_eq_some hold⟩))
    · rw [if_neg hthis] at hs
      refine says_of_same hreg ?_ hs fun hc => ?_
      · rintro ⟨_, _, _, ⟨⟩, hn, -⟩
        exact hthis ⟨rfl, hn⟩
      · rw [call, submit, unregister, hold]
        exact hc

/-- Each call says one of the three things of each service. -/
theorem says_call (x : Exchange) (c : Call) (key name : String) :
    x.Says c key name ((x.call c).service? key name) := by
  cases c with
  | connect other => exact says_connect x other key name
  | disconnect other =>
    exact GoesWith.says (by simp [Call.Registers]) (by simp [Withdraws]) (.disconnect x other key)
  | abandon other =>
    have hs : (x.abandon other).servicesOf key = x.servicesOf key := by
      rw [servicesOf, services_abandon, servicesOf]
    exact GoesWith.says (by simp [Call.Registers]) (by simp [Withdraws])
      (.stays (isConnected_abandon x other key) hs)
  | take other =>
    have hs : (x.take other).2.servicesOf key = x.servicesOf key := by
      rw [servicesOf, services_take, servicesOf]
    exact GoesWith.says (by simp [Call.Registers]) (by simp [Withdraws])
      (.stays (isConnected_take x other key) hs)
  | request other r =>
    cases r with
    | register id route d => exact says_register x other id route d key name
    | unregister id route d => exact says_unregister x other id route d key name
    | send m =>
      exact GoesWith.says (by simp [Call.Registers]) (by simp [Withdraws]) (.deliver x other m key)
    | search id query =>
      exact GoesWith.says (by simp [Call.Registers]) (by simp [Withdraws]) (.respond x other _ key)
    | searchWide id query =>
      exact GoesWith.says (by simp [Call.Registers]) (by simp [Withdraws]) (.respond x other _ key)

/-! ### Runs -/

theorem Call.Registers.unique {d' : Description} (h : c.Registers key name d) (h' : c.Registers key name d') :
    d = d' := by
  obtain ⟨id, route, rfl, -⟩ := h
  obtain ⟨_, _, ⟨⟩, -⟩ := h'
  rfl

theorem Call.Registers.not_withdraws (h : c.Registers key name d) : ¬ x.Withdraws c key name := by
  obtain ⟨id, route, rfl, -⟩ := h
  rintro ⟨_, _, _, ⟨⟩, -⟩

theorem Call.Registers.not_leaves (h : c.Registers key name d) : ¬ x.Leaves c key := by
  obtain ⟨id, route, rfl, -⟩ := h
  exact fun hl => hl.2 hl.1

theorem not_onOffer_nil : ¬ x.OnOffer [] key name d := by
  rintro ⟨before, c, hb, -⟩
  simpa using hb.length_le

/-- The last call of a run registers the service, or it passes it by and the calls before tell. -/
theorem onOffer_concat : x.OnOffer (cs ++ [c]) key name d ↔
    c.Registers key name d ∨ x.OnOffer cs key name d ∧ (x.run cs).Passes c key name := by
  constructor
  · rintro ⟨before, c₀, hb, hreg, hall⟩
    rcases List.prefix_concat_iff.1 hb with heq | hb
    · obtain ⟨-, rfl⟩ := List.concat_inj.1 (by simpa using heq)
      exact .inl hreg
    · refine .inr ⟨⟨before, c₀, hb, hreg, fun us c' hus hcs => ?_⟩, hall cs c hb (List.prefix_refl _)⟩
      exact hall us c' hus (hcs.trans (List.prefix_append cs [c]))
  · rintro (hreg | ⟨⟨before, c₀, hb, hreg, hall⟩, hpass⟩)
    · -- nothing comes after the last call
      refine ⟨cs, c, List.prefix_refl _, hreg, fun us c' hus hcs => ?_⟩
      have hlen := hus.length_le
      have hlen' := hcs.length_le
      simp only [List.length_append, List.length_singleton] at hlen hlen'
      omega
    · refine ⟨before, c₀, hb.trans (List.prefix_append cs [c]), hreg, fun us c' hus hcs => ?_⟩
      rcases List.prefix_concat_iff.1 hcs with heq | hcs
      · obtain ⟨rfl, rfl⟩ := List.append_singleton_inj.1 heq
        exact hpass
      · exact hall us c' hus hcs

/-- What the history of a run says is registered is registered behind it, with that description. -/
theorem service?_run_iff (hnew : x.service? key name = none) :
    (x.run cs).service? key name = some d ↔ x.OnOffer cs key name d := by
  induction cs using List.reverseRecOn generalizing d with
  | nil =>
    refine iff_of_false ?_ not_onOffer_nil
    rw [run, List.foldl_nil, hnew]
    rintro ⟨⟩
  | append_singleton cs c ih =>
    rw [onOffer_concat, run_concat]
    have hsays := says_call (x.run cs) c key name
    generalize ((x.run cs).call c).service? key name = found at hsays
    cases hsays with
    | registers h =>
      rw [Option.some.injEq]
      refine ⟨fun hd => .inl (hd ▸ h), ?_⟩
      rintro (hreg | ⟨-, hpass⟩)
      · exact h.unique hreg
      · exact absurd h (hpass.unregistered _)
    | ends h =>
      refine iff_of_false (by simp) ?_
      rintro (hreg | ⟨-, hpass⟩)
      · exact h.elim hreg.not_withdraws hreg.not_leaves
      · exact h.elim hpass.kept hpass.stays
    | passes h =>
      rw [ih]
      exact ⟨fun ho => .inr ⟨ho, h⟩, fun ho => (ho.resolve_left (h.unregistered d)).1⟩

end Negotiation.Exchange
