import Negotiation.Proofs.Exchange.Registration

/-!
Who offers services. An agent that leaves takes its services with it, and so does one that is found to
read no more; but registering does not ask whether the agent is connected. A service of an agent that is
not there (`Stray`) is therefore one that was registered while the agent was away, and searches list it
and the agent finds it again when it comes back. Main statement: `strays_registered_away`.
-/

namespace Negotiation.Exchange

variable {x : Exchange} {key name : String} {d : Description} {c : Call} {cs : List Call}

/-- A service of an agent that is not connected. -/
def Stray (x : Exchange) (key name : String) (d : Description) : Prop :=
  x.service? key name = some d ∧ ¬ x.isConnected key

/-- A service was registered in a run while its agent was not connected, and the agent has not been
connected since. -/
def RegisteredAway (x : Exchange) (cs : List Call) (key name : String) (d : Description) : Prop :=
  ∃ before id route after, cs = before ++ .request key (.register id route d) :: after ∧
    route.service = name ∧ ∀ us, before <+: us → us <+: cs → ¬ (x.run us).isConnected key

/-! ### Strays -/

/-- Only a registration makes strays: an agent that leaves takes its services with it. -/
theorem stray_of_call (h : (x.call c).Stray key name d) : x.Stray key name d ∨
    ∃ id route, c = .request key (.register id route d) ∧ route.service = name ∧ ¬ x.isConnected key := by
  obtain ⟨hs, hc⟩ := h
  have hsays := x.says_call c key name
  generalize (x.call c).service? key name = found at hs hsays
  cases hsays with
  | registers h =>
    obtain ⟨id, route, rfl, hn⟩ := h
    exact .inr ⟨id, route, by rw [Option.some.inj hs], hn, hc⟩
  | ends h => cases hs
  | passes h => exact .inl ⟨hs, fun hx => h.stays ⟨hx, hc⟩⟩

/-- A stray behind a run was one before it, or it was registered on the way and its agent stayed away. -/
theorem stray_of_run (h : (x.run cs).Stray key name d) :
    x.Stray key name d ∨ x.RegisteredAway cs key name d := by
  induction cs using List.reverseRecOn with
  | nil => exact .inl h
  | append_singleton cs c ih =>
    have haway := h.2
    rw [run_concat] at h
    rcases stray_of_call h with h | ⟨id, route, rfl, hn, hc⟩
    · refine (ih h).imp_right ?_
      rintro ⟨before, id, route, after, hcs, hn, hall⟩
      refine ⟨before, id, route, after ++ [c], by rw [hcs]; simp, hn, fun us hb hus => ?_⟩
      rcases List.prefix_concat_iff.1 hus with rfl | hus
      · exact haway
      · exact hall us hb hus
    · refine .inr ⟨cs, id, route, [], rfl, hn, fun us hb hus => ?_⟩
      rcases List.prefix_concat_iff.1 hus with rfl | hus
      · exact haway
      · rw [← hb.eq_of_length (Nat.le_antisymm hb.length_le hus.length_le)]
        exact hc

theorem not_stray_new (capacity : Nat) (key name : String) (d : Description) :
    ¬ (new capacity).Stray key name d := by
  rintro ⟨hs, -⟩
  cases hs

/-- A service that a search finds is registered under its agent and name. -/
theorem exists_of_mem_matching {query : Query} {a : Address} (h : a ∈ (x.matching query).map (·.1)) :
    ∃ key name d, a = (Address.ofKey key).withLabel name ∧ x.service? key name = some d := by
  obtain ⟨p, hp, rfl⟩ := List.mem_map.1 h
  obtain ⟨⟨key, name, d⟩, hservice, rfl⟩ := List.mem_map.1 hp
  exact ⟨key, name, d, rfl, mem_allServices_iff.1 (List.mem_filter.1 hservice).1⟩

/-- STRAYS: in every run from a new broker, with connections that are used before, while and after
    their agents are connected: a service belongs to an agent that is connected, or it was registered at a
    moment when its agent was not, and the agent has not been connected since. So whom a search lists is
    connected or has registered that service while it was away, and what an agent that comes back finds
    of its own is all registered while it was away. -/
theorem strays_registered_away (capacity : Nat) (cs : List Call) :
    let x := (new capacity).run cs
    (∀ key name d, x.service? key name = some d →
      x.isConnected key ∨ (new capacity).RegisteredAway cs key name d) ∧
    (∀ query a, a ∈ (x.matching query).map (·.1) → ∃ key name d,
      a = (Address.ofKey key).withLabel name ∧ x.service? key name = some d ∧
      (x.isConnected key ∨ (new capacity).RegisteredAway cs key name d)) ∧
    ∀ key y, x.connect key = .ok y → ∀ name d, y.service? key name = some d →
      (new capacity).RegisteredAway cs key name d := by
  intro x
  have hstray : ∀ {key name d}, x.Stray key name d → (new capacity).RegisteredAway cs key name d :=
    fun h => (stray_of_run h).resolve_left (not_stray_new capacity _ _ _)
  have hoffered : ∀ key name d, x.service? key name = some d →
      x.isConnected key ∨ (new capacity).RegisteredAway cs key name d := by
    intro key name d hs
    by_cases hc : x.isConnected key
    · exact .inl hc
    · exact .inr (hstray ⟨hs, hc⟩)
  refine ⟨hoffered, fun query a ha => ?_, fun key y hy name d hs => ?_⟩
  · obtain ⟨key, name, d, rfl, hs⟩ := exists_of_mem_matching ha
    exact ⟨key, name, d, rfl, hs, hoffered key name d hs⟩
  · -- an agent that can connect is not connected
    rw [connect] at hy
    split at hy
    · cases hy
    · split at hy
      · cases hy
      · next hc =>
        cases hy
        exact hstray ⟨hs, hc⟩

/-- An agent that has left registers a service: the service is there and a search lists it, though its
agent is not connected, and the agent that comes back has it from the start. -/
theorem registered_after_leaving :
    let cs : List Call := [.connect "alice", .disconnect "alice",
      .request "alice" (.register 1 (.ofService (.ofKey "alice") "weather") (.generated .empty "weather"))]
    let x := (new 4).run cs
    (x.service? "alice" "weather").isSome ∧ ¬ x.isConnected "alice" ∧
    (x.matching .any).map (·.1) = [(Address.ofKey "alice").withLabel "weather"] ∧
    ∃ y, x.connect "alice" = .ok y ∧ (y.service? "alice" "weather").isSome :=
  ⟨by decide +kernel, by decide +kernel, by decide +kernel, _, rfl, by decide +kernel⟩

/-- Two services of an agent that comes back: the one of before it left is gone, and the other it has
registered while it was away. -/
theorem found_on_return :
    let route (name : String) : Route := .ofService (.ofKey "alice") name
    let d : Description := .generated .empty "weather"
    let cs : List Call := [.connect "alice", .request "alice" (.register 1 (route "wind") d),
      .disconnect "alice", .request "alice" (.register 2 (route "rain") d)]
    let x := (new 4).run cs
    ∃ y, x.connect "alice" = .ok y ∧ y.service? "alice" "wind" = none ∧
      y.service? "alice" "rain" = some d ∧ (new 4).RegisteredAway cs "alice" "rain" d := by
  intro route d cs x
  obtain ⟨y, hy, hgone, hs⟩ : ∃ y, x.connect "alice" = .ok y ∧ y.service? "alice" "wind" = none ∧
      y.service? "alice" "rain" = some d := ⟨_, rfl, by decide +kernel, by decide +kernel⟩
  exact ⟨y, hy, hgone, hs, (strays_registered_away 4 cs).2.2 "alice" y hy "rain" d hs⟩

end Negotiation.Exchange
