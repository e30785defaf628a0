import Negotiation.Proofs.SortedMap
import Negotiation.Service.Description

/-!
Attributes in name order. A model that is built holds the only ascending arrangement of its
attributes, and the bisection finds in it what a search from the front finds.
-/

namespace Negotiation.Model

/-- Attributes in strictly ascending name order. -/
def Ascending (as : List Attribute) : Prop := as.Pairwise fun a b => a.name < b.name

namespace Ascending

variable {as : List Attribute} {i j : Nat} {a b : Attribute}

theorem lt_of_getElem? (h : Ascending as) (hi : as[i]? = some a) (hj : as[j]? = some b)
    (hij : i < j) : a.name < b.name := by
  obtain ⟨hi', rfl⟩ := List.getElem?_eq_some_iff.1 hi
  obtain ⟨hj', rfl⟩ := List.getElem?_eq_some_iff.1 hj
  exact List.pairwise_iff_getElem.1 h i j hi' hj' hij

end Ascending

/-! ### Building -/

theorem byName_eq {as bs : List Attribute} (hp : as.Perm bs) (hb : Ascending bs) : byName as = bs :=
  SortedMap.mergeSort_eq_of_ascending Attribute.name hp hb

theorem repeated?_eq_none {as : List Attribute} (h : Ascending as) : repeated? as = none := by
  induction as with
  | nil => rfl
  | cons a rest ih =>
    cases rest with
    | nil => rfl
    | cons b rest =>
      obtain ⟨ha, hrest⟩ := List.pairwise_cons.1 h
      have hne : a.name ≠ b.name := fun he => Std.lt_irrefl (he ▸ ha b List.mem_cons_self)
      rw [repeated?, if_neg hne]
      exact ih hrest

theorem build_eq {name : String} {as bs : List Attribute} (hp : as.Perm bs) (hb : Ascending bs) :
    build name as = .ok { name, attributes := bs } := by
  simp only [build, byName_eq hp hb, repeated?_eq_none hb]

/-! ### Looking up -/

/-- The bisection keeps the place of the name between its bounds. -/
theorem bisect_eq_some {as : List Attribute} (h : Ascending as) {name : String} {base size i : Nat}
    {a : Attribute} (hi : as[i]? = some a) (hn : a.name = name) (hb : base ≤ i) (hs : i < base + size)
    (hlen : base + size ≤ as.length) : bisect as name base size = some a := by
  fun_induction bisect as name base size with
  | case1 base size hsize half b hmid hlt ih =>
    -- the name is before the middle
    refine ih hb (Nat.lt_of_not_le fun hge => ?_) (by omega)
    rcases Nat.lt_or_eq_of_le (show base + half ≤ i by omega) with hmi | hmi
    · exact Std.lt_irrefl (Std.lt_trans hlt (hn ▸ h.lt_of_getElem? hmid hi hmi))
    · obtain rfl : b = a := Option.some.inj (hmid.symm.trans (hmi ▸ hi))
      exact Std.lt_irrefl (hn ▸ hlt)
  | case2 base size hsize half b hmid hlt ih =>
    refine ih (Nat.le_of_not_lt fun hge => ?_) (by omega) (by omega)
    exact hlt (hn ▸ h.lt_of_getElem? hi hmid (by omega))
  | case3 base size hsize half hmid =>
    have hout := List.getElem?_eq_none_iff.1 hmid
    omega
  | case4 base size hsize =>
    obtain rfl : i = base := by omega
    rw [hi, Option.filter_some, if_pos (by simpa using hn)]

theorem attribute?_eq_some {m : Model} (h : Ascending m.attributes) {a : Attribute}
    (ha : a ∈ m.attributes) : m.attribute? a.name = some a := by
  obtain ⟨i, hi⟩ := List.mem_iff_getElem?.1 ha
  obtain ⟨hlt, -⟩ := List.getElem?_eq_some_iff.1 hi
  exact bisect_eq_some h hi rfl (Nat.zero_le i) (by omega) (by omega)

/-- What the bisection finds, in whatever attributes, has the name. -/
theorem mem_of_bisect {as : List Attribute} {name : String} {base size : Nat} {a : Attribute}
    (h : bisect as name base size = some a) : a ∈ as ∧ a.name = name := by
  fun_induction bisect as name base size with
  | case1 base size hsize half b hmid hlt ih => exact ih h
  | case2 base size hsize half b hmid hlt ih => exact ih h
  | case3 base size hsize half hmid => cases h
  | case4 base size hsize =>
    obtain ⟨ha, hn⟩ := Option.filter_eq_some_iff.1 h
    exact ⟨List.mem_of_getElem? ha, by simpa using hn⟩

theorem attribute?_eq_some_iff {m : Model} (h : Ascending m.attributes) {name : String} {a : Attribute} :
    m.attribute? name = some a ↔ a ∈ m.attributes ∧ a.name = name :=
  ⟨mem_of_bisect, fun ⟨ha, hn⟩ => hn ▸ attribute?_eq_some h ha⟩

theorem attribute?_eq_none_iff {m : Model} (h : Ascending m.attributes) {name : String} :
    m.attribute? name = none ↔ ∀ a ∈ m.attributes, a.name ≠ name := by
  simp only [Option.eq_none_iff_forall_ne_some, ne_eq, attribute?_eq_some_iff h, not_and]

end Negotiation.Model
