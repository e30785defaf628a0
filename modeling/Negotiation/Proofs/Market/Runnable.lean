import Negotiation.Market.Plan
import Negotiation.Proofs.Result

/-!
Which plans are accepted. A key is accepted when it is not empty and all its characters are digits of
base 58. Stations are checked one by one against the keys before them, and that comes to the keys of all
agents being different. Main statement (`validate_eq_ok_iff`): a plan is accepted just when it is
`Runnable`, which says of the whole plan what the checks say of its parts.
-/

namespace Negotiation

/-! ### Digits of base 58 -/

namespace Base58

theorem digit?_eq_none_iff {c : Char} : digit? c = none ↔ c ∉ alphabet := by
  simp only [digit?, List.findIdx?_eq_none_iff, decide_eq_false_iff_not]
  exact ⟨fun h hc => h c hc rfl, fun h d hd hdc => h (hdc ▸ hd)⟩

theorem exists_digits_iff (position : Nat) {text : List Char} :
    (∃ ds, digits position text = .ok ds) ↔ ∀ c ∈ text, c ∈ alphabet := by
  induction text generalizing position with
  | nil => exact ⟨fun _ c hc => absurd hc List.not_mem_nil, fun _ => ⟨[], rfl⟩⟩
  | cons c r ih =>
    rw [List.forall_mem_cons, ← ih (position + 1), digits]
    cases hc : digit? c with
    | none => simp [digit?_eq_none_iff.1 hc]
    | some d =>
      have hmem : c ∈ alphabet := Decidable.byContradiction fun hnot => by
        cases hc.symm.trans (digit?_eq_none_iff.2 hnot)
      cases digits (position + 1) r with
      | error e => simp [Except.map]
      | ok ds => simp [Except.map, hmem]

theorem exists_decode_iff {text : String} :
    (∃ bytes, decode text = .ok bytes) ↔ ∀ c ∈ text.toList, c ∈ alphabet := by
  rw [← exists_digits_iff 0, decode]
  cases digits 0 text.toList with
  | error e => simp [Except.map]
  | ok ds => simp [Except.map]

end Base58

/-! ### Limits -/

theorem Limits.validate_eq_ok_iff {l : Limits} : l.validate = .ok () ↔
    0 < l.inactivityTimeout ∧ 0 < l.maxDialogues ∧ 0 < l.sweepInterval := by
  simp only [UInt64.pos_iff_ne_zero, validate, zero?]
  grind

/-! ### Plans -/

/-- A text that can be an agent's key: digits of base 58, at least one. -/
def IsKey (key : String) : Prop := key ≠ "" ∧ ∀ c ∈ key.toList, c ∈ Base58.alphabet

/-- A station that has a key, a price that is not negative, and both coordinates or neither. -/
structure StationPlan.Described (s : StationPlan) : Prop where
  key : IsKey s.key
  price : 0 ≤ s.price
  location : s.latitude.isSome = s.longitude.isSome

namespace Plan

/-- A plan that can be run. -/
structure Runnable (p : Plan) : Prop where
  client : IsKey p.client
  stations : ∀ s ∈ p.stations, s.Described
  distinct : (p.client :: p.stations.map (·.key)).Nodup
  nonempty : p.stations ≠ []
  timeout : 0 < p.timeout
  inactivityTimeout : 0 < p.limits.inactivityTimeout
  maxDialogues : 0 < p.limits.maxDialogues
  sweepInterval : 0 < p.limits.sweepInterval

variable {p : Plan} {s : StationPlan} {taken : List String} {l : List StationPlan} {key : String}

theorem checkKey_eq_ok_iff : checkKey key = .ok () ↔ IsKey key := by
  rw [checkKey, Result.ite_error_eq_ok_iff, IsKey, ← Base58.exists_decode_iff]
  refine and_congr_right fun _ => ?_
  cases Base58.decode key with
  | error fault => simp
  | ok bytes => simp

theorem checkStation_eq_ok_iff : checkStation taken s = .ok () ↔ s.Described ∧ s.key ∉ taken := by
  simp only [checkStation, Result.check_bind_eq_ok_iff, Result.ite_error_eq_ok_iff, checkKey_eq_ok_iff,
    Int64.not_lt, ne_eq, Decidable.not_not, and_true]
  exact ⟨fun ⟨hkey, htaken, hprice, hlocation⟩ => ⟨⟨hkey, hprice, hlocation⟩, htaken⟩,
    fun ⟨hs, htaken⟩ => ⟨hs.key, htaken, hs.price, hs.location⟩⟩

/-- Stations are accepted when each is described, and their keys are all different and none of them is
taken before. -/
theorem checkStations_eq_ok_iff : checkStations taken l = .ok () ↔
    (∀ s ∈ l, s.Described) ∧ (∀ key ∈ taken, key ∉ l.map (·.key)) ∧ (l.map (·.key)).Nodup := by
  induction l generalizing taken with
  | nil => simp [checkStations]
  | cons s rest ih =>
    rw [checkStations, Result.check_bind_eq_ok_iff, checkStation_eq_ok_iff, ih, List.map_cons]
    constructor
    · rintro ⟨⟨hs, hnew⟩, hrest, htaken, hnodup⟩
      obtain ⟨hself, htaken⟩ := List.forall_mem_cons.1 htaken
      refine ⟨List.forall_mem_cons.2 ⟨hs, hrest⟩, fun key hkey hmem => ?_, List.nodup_cons.2 ⟨hself, hnodup⟩⟩
      rcases List.mem_cons.1 hmem with rfl | hmem
      · exact hnew hkey
      · exact htaken key hkey hmem
    · rintro ⟨hall, htaken, hnodup⟩
      obtain ⟨hs, hrest⟩ := List.forall_mem_cons.1 hall
      obtain ⟨hself, hnodup⟩ := List.nodup_cons.1 hnodup
      have hfree : ∀ key ∈ taken, key ∉ rest.map (·.key) := fun key hkey hmem =>
        htaken key hkey (List.mem_cons_of_mem _ hmem)
      exact ⟨⟨hs, fun hkey => htaken _ hkey List.mem_cons_self⟩, hrest,
        List.forall_mem_cons.2 ⟨hself, hfree⟩, hnodup⟩

theorem validate_eq_ok_iff : p.validate = .ok () ↔ p.Runnable := by
  simp only [validate, Result.error_bind, Result.check_bind_eq_ok_iff, Result.ite_error_eq_ok_iff,
    Result.mapError_eq_ok_iff, checkKey_eq_ok_iff, checkStations_eq_ok_iff, Limits.validate_eq_ok_iff,
    List.isEmpty_iff, List.forall_mem_singleton, ← ne_eq, ← UInt64.pos_iff_ne_zero]
  constructor
  · rintro ⟨hclient, hsome, ⟨hstations, hdistinct⟩, htime, hinactivity, hdialogues, hsweep⟩
    exact ⟨hclient, hstations, List.nodup_cons.2 hdistinct, hsome, htime, hinactivity, hdialogues, hsweep⟩
  · intro h
    exact ⟨h.client, h.nonempty, ⟨h.stations, List.nodup_cons.1 h.distinct⟩, h.timeout,
      h.inactivityTimeout, h.maxDialogues, h.sweepInterval⟩

/-- Checking a plan decides whether it can be run. -/
instance (p : Plan) : Decidable p.Runnable :=
  match h : p.validate with
  | .ok () => isTrue (validate_eq_ok_iff.1 h)
  | .error _ => isFalse fun hr => by cases h.symm.trans (validate_eq_ok_iff.2 hr)

example : ¬ ({ client := "Buyer0", stations := [{ key := "Station1", price := 50 }] } : Plan).Runnable := by
  decide +kernel

end Plan

end Negotiation
