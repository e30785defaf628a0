import Mathlib.Data.List.Induction
import Mathlib.Data.List.Nodup
import Mathlib.Data.List.Perm.Basic
import Negotiation.SortedMap

/-!
Keys, sizes and orders of maps. Each entry counts once, so a new key makes a map one larger, and
maps that hold the same keys are of one size.
-/

namespace Negotiation.SortedMap

variable {κ α : Type}

section Keys

variable [LT κ]

theorem pairwise_keys (m : SortedMap κ α) : m.keys.Pairwise (· < ·) := List.pairwise_map.2 m.sorted

theorem length_keys (m : SortedMap κ α) : m.keys.length = m.size := List.length_map ..

theorem get?_eq_none_of_size [DecidableEq κ] {m : SortedMap κ α} (h : m.size = 0) (k : κ) :
    m.get? k = none := by
  have hnil : m.entries = [] := List.length_eq_zero_iff.1 h
  rw [get?, hnil]
  rfl

end Keys

section Sorting

variable [LE κ] [LT κ] [DecidableLE κ] [Std.IsLinearOrder κ] [Std.LawfulOrderLT κ]

omit [LT κ] [Std.LawfulOrderLT κ] in
/-- Sorting by a key leaves the keys in order. -/
theorem pairwise_mergeSort_key (key : α → κ) (as : List α) :
    (as.mergeSort fun a b => key a ≤ key b).Pairwise fun a b => key a ≤ key b :=
  (List.pairwise_mergeSort (fun a b c => by simpa using Std.le_trans) (fun a b => by
    simpa using Std.le_total) as).imp fun h => by simpa using h

/-- Sorting by a key finds the one ascending arrangement, however the list comes. -/
theorem mergeSort_eq_of_ascending (key : α → κ) {as bs : List α} (hp : as.Perm bs)
    (hb : bs.Pairwise fun a b => key a < key b) : as.mergeSort (fun a b => key a ≤ key b) = bs := by
  have hle : bs.Pairwise fun a b => key a ≤ key b := hb.imp Std.le_of_lt
  have hperm : (as.mergeSort fun a b => key a ≤ key b).Perm bs := (List.mergeSort_perm as _).trans hp
  have hkeys : (bs.map key).Nodup := List.pairwise_map.2 (hb.imp Std.ne_of_lt)
  refine hperm.eq_of_pairwise (fun a b ha hb' hab hba => ?_) (pairwise_mergeSort_key key as) hle
  exact List.inj_on_of_nodup_map hkeys (hperm.subset ha) hb' (Std.le_antisymm hab hba)

end Sorting

section Searching

variable {β : Type} [LE κ] [LT κ] [Std.IsLinearOrder κ] [Std.LawfulOrderLT κ]

/-- What a search finds first in an ascending list is what it finds under the least key. -/
theorem findSome?_eq_some_iff_of_ascending (key : α → κ) {l : List α}
    (hl : l.Pairwise fun a b => key a < key b) {f : α → Option β} {b : β} :
    l.findSome? f = some b ↔ ∃ a ∈ l, f a = some b ∧ ∀ a' ∈ l, key a' < key a → f a' = none := by
  rw [List.findSome?_eq_some_iff]
  constructor
  · rintro ⟨before, a, after, rfl, hf, hbefore⟩
    rw [List.pairwise_append, List.pairwise_cons] at hl
    refine ⟨a, List.mem_append_right _ List.mem_cons_self, hf, fun a' ha' hlt => ?_⟩
    rw [List.mem_append, List.mem_cons] at ha'
    rcases ha' with ha' | rfl | ha'
    · exact hbefore a' ha'
    · exact absurd hlt Std.lt_irrefl
    · exact absurd (Std.lt_trans hlt (hl.2.1.1 a' ha')) Std.lt_irrefl
  · rintro ⟨a, ha, hf, hleast⟩
    obtain ⟨before, after, rfl⟩ := List.append_of_mem ha
    refine ⟨before, a, after, rfl, hf, fun a' ha' => hleast a' (List.mem_append_left _ ha') ?_⟩
    exact (List.pairwise_append.1 hl).2.2 a' ha' a List.mem_cons_self

theorem find?_eq_some_iff_of_ascending {l : List κ} (hl : l.Pairwise (· < ·)) {p : κ → Bool} {k : κ} :
    l.find? p = some k ↔ k ∈ l ∧ p k ∧ ∀ k' ∈ l, k' < k → ¬ p k' := by
  rw [← List.findSome?_guard, findSome?_eq_some_iff_of_ascending id hl]
  constructor
  · rintro ⟨a, ha, hf, hleast⟩
    obtain ⟨rfl, hp⟩ := Option.guard_eq_some_iff.1 hf
    exact ⟨ha, hp, fun k' hk' hlt => by simpa using hleast k' hk' hlt⟩
  · rintro ⟨hk, hp, hleast⟩
    exact ⟨k, hk, Option.guard_eq_some_iff.2 ⟨rfl, hp⟩, fun k' hk' hlt => by simpa using hleast k' hk' hlt⟩

end Searching

section Order

variable [LE κ] [LT κ] [DecidableEq κ] [Std.IsLinearOrder κ] [Std.LawfulOrderLT κ] {m : SortedMap κ α}
  {k : κ}

omit [Std.IsLinearOrder κ] in
theorem mem_keys_iff : k ∈ m.keys ↔ ∃ a, m.get? k = some a := by
  rw [keys, List.mem_map]
  constructor
  · rintro ⟨⟨k', a⟩, h, rfl⟩
    exact ⟨a, mem_toList_iff.1 h⟩
  · rintro ⟨a, h⟩
    exact ⟨(k, a), mem_toList_iff.2 h, rfl⟩

omit [Std.IsLinearOrder κ] in
theorem mem_values_iff {a : α} : a ∈ m.values ↔ ∃ k, m.get? k = some a := by
  rw [values, List.mem_map]
  constructor
  · rintro ⟨⟨k, a⟩, h, rfl⟩
    exact ⟨k, mem_toList_iff.1 h⟩
  · rintro ⟨k, h⟩
    exact ⟨(k, a), mem_toList_iff.2 h, rfl⟩

/-! ### The first value that counts -/

section FindSome

variable {β : Type} {f : α → Option β} {b : β}

omit [Std.IsLinearOrder κ] in
theorem isSome_findSome?_values :
    (m.values.findSome? f).isSome ↔ ∃ k a, m.get? k = some a ∧ (f a).isSome := by
  rw [List.findSome?_isSome_iff]
  constructor
  · rintro ⟨a, ha, hf⟩
    obtain ⟨k, hk⟩ := mem_values_iff.1 ha
    exact ⟨k, a, hk, hf⟩
  · rintro ⟨k, a, hk, hf⟩
    exact ⟨a, mem_values_iff.2 ⟨k, hk⟩, hf⟩

/-- The first value that counts is the one under the least key. -/
theorem findSome?_values_eq_some_iff : m.values.findSome? f = some b ↔
    ∃ k a, m.get? k = some a ∧ f a = some b ∧ ∀ k' a', k' < k → m.get? k' = some a' → f a' = none := by
  rw [values, List.findSome?_map, findSome?_eq_some_iff_of_ascending (·.1) m.sorted]
  constructor
  · rintro ⟨⟨k, a⟩, ha, hf, hleast⟩
    exact ⟨k, a, mem_toList_iff.1 ha, hf,
      fun k' a' hlt hk' => hleast (k', a') (mem_toList_iff.2 hk') hlt⟩
  · rintro ⟨k, a, hk, hf, hleast⟩
    exact ⟨(k, a), mem_toList_iff.2 hk, hf, fun x hx hlt => hleast x.1 x.2 hlt (mem_toList_iff.1 hx)⟩

end FindSome

omit [DecidableEq κ] [Std.IsLinearOrder κ] in
theorem nodup_keys (m : SortedMap κ α) : m.keys.Nodup := by
  refine m.pairwise_keys.imp ?_
  rintro a b h rfl
  exact Std.lt_irrefl h

omit [Std.IsLinearOrder κ] in
/-- The keys of a map are the members of a list without repetitions, in another order. -/
theorem perm_keys {l : List κ} (hl : l.Nodup) (h : ∀ k, (∃ a, m.get? k = some a) ↔ k ∈ l) :
    m.keys.Perm l :=
  (List.perm_ext_iff_of_nodup m.nodup_keys hl).2 fun k => mem_keys_iff.trans (h k)

omit [Std.IsLinearOrder κ] in
/-- If the keys of a map are the images of the members of a list, they are so in ascending order. -/
theorem exists_map_eq_keys {ι : Type} {f : ι → κ} {l : List ι} (hl : (l.map f).Nodup)
    (h : ∀ k, (∃ a, m.get? k = some a) ↔ k ∈ l.map f) : ∃ l' : List ι, m.keys = l'.map f ∧ l'.Perm l :=
  (congrFun₂ (List.eq_map_comp_perm f) m.keys l).mpr (perm_keys hl h)

omit [Std.IsLinearOrder κ] in
theorem size_eq_length {l : List κ} (hl : l.Nodup) (h : ∀ k, (∃ a, m.get? k = some a) ↔ k ∈ l) :
    m.size = l.length := by
  rw [← m.length_keys, (perm_keys hl h).length_eq]

variable [DecidableLT κ]

/-! ### Lists of pairs -/

theorem get?_insert_all {l : List (κ × α)} (h : l.Pairwise fun x y => x.1 < y.1) (m : SortedMap κ α)
    (k : κ) : (l.foldl (fun m e => m.insert e.1 e.2) m).get? k = (find k l).or (m.get? k) := by
  induction l generalizing m with
  | nil => rfl
  | cons e r ih =>
    obtain ⟨he, hr⟩ := List.pairwise_cons.1 h
    rw [List.foldl_cons, ih hr, get?_insert, find]
    split
    · next hk =>
      have hn : find k r = none := find_eq_none_of_forall_lt (hk ▸ he)
      rw [hn]
      rfl
    · rfl

/-- The map of its own entries is the map. -/
theorem ofList_toList (m : SortedMap κ α) : ofList m.toList = m :=
  ext_get? fun k => (get?_insert_all m.sorted empty k).trans (Option.or_none ..)

theorem mem_of_get?_ofList {l : List (κ × α)} {a : α} (h : (ofList l).get? k = some a) : (k, a) ∈ l := by
  induction l using List.reverseRecOn with
  | nil => cases h
  | append_singleton l e ih =>
    rw [ofList, List.foldl_concat, get?_insert] at h
    split at h
    · next hk => exact List.mem_append_right _ (by simpa [← hk, Prod.ext_iff, eq_comm] using h)
    · exact List.mem_append_left _ (ih h)

/-! ### Sizes -/

theorem contains_insert (a : α) (k' : κ) :
    (m.insert k a).contains k' = (decide (k = k') || m.contains k') := by
  rw [contains, get?_insert]
  by_cases h : k = k' <;> simp [h, contains]

theorem size_insert_of_none (a : α) (h : m.get? k = none) : (m.insert k a).size = m.size + 1 := by
  have hk : k ∉ m.keys := fun hk => by
    obtain ⟨a, ha⟩ := mem_keys_iff.1 hk
    exact absurd (h.symm.trans ha) (by simp)
  rw [← m.length_keys]
  refine size_eq_length (l := k :: m.keys) (List.nodup_cons.2 ⟨hk, m.nodup_keys⟩) fun k' => ?_
  rw [get?_insert, List.mem_cons, mem_keys_iff]
  split
  · next he => simp [he]
  · next hne => simp [Ne.symm hne]

theorem size_insert_of_some {b : α} (a : α) (h : m.get? k = some b) : (m.insert k a).size = m.size := by
  rw [← m.length_keys]
  refine size_eq_length m.nodup_keys fun k' => ?_
  rw [get?_insert, mem_keys_iff]
  split
  · next he => simp [← he, h]
  · rfl

end Order

end Negotiation.SortedMap
