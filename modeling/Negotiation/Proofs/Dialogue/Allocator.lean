import Mathlib.Data.List.Nodup
import Mathlib.Data.List.Perm.Subperm
import Mathlib.Data.Nat.Find
import Negotiation.Dialogue.Allocator

/-!
The circle of numbers. The numbers that an allocation tries are the non-zero ones in their order from
the allocator's place on, and none comes twice in one round. So an allocation that tries enough numbers
finds the first one that is free, and what it has passed over are as many numbers that are taken.
-/

namespace Negotiation.Allocator

variable {a : Allocator} {taken : DialogueId → Bool} {attempts k : Nat} {id : DialogueId}

/-- The number of non-zero numbers. -/
def round : Nat := 0xFFFFFFFF

theorem candidate_pos (a : Allocator) : 0 < a.candidate.toNat := by
  rw [candidate]
  split
  · decide
  · next h =>
    refine Nat.pos_of_ne_zero fun h0 => h (UInt32.toNat_inj.1 ?_)
    rw [h0]
    rfl

/-- The place of an allocator on the circle, counted from the number 1. -/
def place (a : Allocator) : Nat := a.candidate.toNat - 1

theorem place_lt (a : Allocator) : a.place < round := by
  have hlt := a.candidate.toNat_lt
  rw [place, round]
  omega

theorem place_advance (a : Allocator) : a.advance.place = (a.place + 1) % round := by
  have hpos := a.candidate_pos
  have hlt := a.candidate.toNat_lt
  rw [place, place, advance, candidate, round]
  simp only
  split
  · next h =>
    -- from the last number to the first
    have h0 : (a.candidate.toNat + 1) % 2 ^ 32 = 0 := by
      rw [← UInt32.toNat_one, ← UInt32.toNat_add, h]
      rfl
    have h1 : (1 : DialogueId).toNat = 1 := rfl
    omega
  · next h =>
    have hadd : (a.candidate + 1).toNat = (a.candidate.toNat + 1) % 2 ^ 32 := UInt32.toNat_add ..
    have hne : (a.candidate + 1).toNat ≠ 0 := fun h0 => h (UInt32.toNat_inj.1 h0)
    omega

/-! ### The circle -/

/-- The number that stands `k` places behind `start` on the circle of the non-zero numbers; a start at 0
is one at 1. -/
def circle (start : UInt32) (k : Nat) : DialogueId := UInt32.ofNat ((start.toNat - 1 + k) % round + 1)

theorem toNat_circle (start : UInt32) (k : Nat) :
    (circle start k).toNat = (start.toNat - 1 + k) % round + 1 := by
  rw [circle, UInt32.toNat_ofNat']
  refine Nat.mod_eq_of_lt ?_
  have hlt : (start.toNat - 1 + k) % round < round := Nat.mod_lt _ (by decide)
  rw [round] at hlt ⊢
  omega

theorem circle_ne_zero (start : UInt32) (k : Nat) : circle start k ≠ 0 := by
  intro h
  have hzero := congrArg UInt32.toNat h
  rw [toNat_circle] at hzero
  exact Nat.succ_ne_zero _ hzero

/-- Every non-zero number comes in the first round. -/
theorem exists_circle_eq (start : UInt32) (hid : id ≠ 0) : ∃ k, k < round ∧ circle start k = id := by
  have hpos : id.toNat ≠ 0 := fun h => hid (UInt32.toNat_inj.1 h)
  have hlt : id.toNat < 2 ^ 32 := id.toNat_lt
  have hstart : start.toNat < 2 ^ 32 := start.toNat_lt
  refine ⟨(id.toNat - 1 + (round - (start.toNat - 1))) % round, Nat.mod_lt _ (by decide), ?_⟩
  refine UInt32.toNat_inj.1 ?_
  rw [toNat_circle, round]
  omega

/-- Two places of one round have different numbers. -/
theorem circle_inj {start : UInt32} {i j : Nat} (hi : i < round) (hj : j < round)
    (h : circle start i = circle start j) : i = j := by
  have hmod := congrArg UInt32.toNat h
  rw [toNat_circle, toNat_circle] at hmod
  rw [round] at hi hj hmod
  omega

/-- If the first numbers of a round are taken, there are no more of them than numbers taken. -/
theorem le_length_of_taken {start : UInt32} {held : List DialogueId} (hround : k ≤ round)
    (hheld : ∀ id, taken id → id ∈ held) (h : ∀ j, j < k → taken (circle start j)) : k ≤ held.length := by
  have hnodup : ((List.range k).map (circle start)).Nodup := by
    refine List.Nodup.map_on (fun i hi j hj he => ?_) List.nodup_range
    exact circle_inj (Nat.lt_of_lt_of_le (List.mem_range.1 hi) hround)
      (Nat.lt_of_lt_of_le (List.mem_range.1 hj) hround) he
  have hsub : (List.range k).map (circle start) ⊆ held := by
    intro id hid
    obtain ⟨j, hj, rfl⟩ := List.mem_map.1 hid
    exact hheld _ (h j (List.mem_range.1 hj))
  simpa using (hnodup.subperm hsub).length_le

/-! ### Tries -/

/-- The allocator behind some tries. -/
def advanced : Nat → Allocator → Allocator
  | 0, a => a
  | n + 1, a => advanced n a.advance

theorem place_advanced (n : Nat) (a : Allocator) : (advanced n a).place = (a.place + n) % round := by
  induction n generalizing a with
  | zero => exact (Nat.mod_eq_of_lt a.place_lt).symm
  | succ n ih =>
    rw [advanced, ih, place_advance, Nat.mod_add_mod]
    congr 1
    omega

/-- The tries of an allocation go along the circle. -/
theorem candidate_advanced (k : Nat) (a : Allocator) : (advanced k a).candidate = circle a.next k := by
  have hplace : a.place = a.next.toNat - 1 := by
    rw [place, candidate]
    split
    · next h => rw [h]; rfl
    · rfl
  have hpos := (advanced k a).candidate_pos
  have hk := place_advanced k a
  rw [hplace, place] at hk
  refine UInt32.toNat_inj.1 ?_
  rw [toNat_circle, ← hk]
  omega

theorem advanced_succ (k : Nat) (a : Allocator) : advanced (k + 1) a = ⟨(advanced k a).candidate + 1⟩ := by
  induction k generalizing a with
  | zero => rfl
  | succ k ih => exact ih a.advance

/-- The place `k` is the first one from `start` on whose number is not taken. -/
structure FirstFree (taken : DialogueId → Bool) (start : UInt32) (k : Nat) : Prop where
  free : taken (circle start k) = false
  passed : ∀ j, j < k → taken (circle start j)

/-- If a non-zero number is free, there is a first one that is. -/
theorem exists_firstFree (start : UInt32) (hid : id ≠ 0) (hfree : taken id = false) :
    ∃ k, k < round ∧ FirstFree taken start k := by
  obtain ⟨k₀, hround, rfl⟩ := exists_circle_eq start hid
  have hex : ∃ k, taken (circle start k) = false := ⟨k₀, hfree⟩
  refine ⟨Nat.find hex, Nat.lt_of_le_of_lt (Nat.find_le hfree) hround, Nat.find_spec hex, fun j hj => ?_⟩
  exact eq_true_of_ne_false (Nat.find_min hex hj)

/-- An allocation that tries enough numbers finds the first free one. -/
theorem allocate_eq_some (hk : k < attempts) (h : FirstFree taken a.next k) :
    a.allocate taken attempts = (some (circle a.next k), ⟨circle a.next k + 1⟩) := by
  obtain ⟨hfree, hpassed⟩ := h
  simp only [← candidate_advanced] at hfree hpassed ⊢
  rw [← advanced_succ]
  induction attempts generalizing a k with
  | zero => exact absurd hk (Nat.not_lt_zero k)
  | succ attempts ih =>
    rw [allocate]
    cases k with
    | zero => exact if_neg (by simpa [advanced] using hfree)
    | succ k =>
      have hpass : taken a.candidate := hpassed 0 (Nat.succ_pos k)
      rw [if_pos hpass]
      exact ih (Nat.lt_of_succ_lt_succ hk) hfree fun j hj => hpassed (j + 1) (Nat.succ_lt_succ hj)

/-- If no non-zero number is free, none is found. -/
theorem allocate_eq_none (h : ∀ id, id ≠ 0 → taken id) (attempts : Nat) (a : Allocator) :
    ∃ a', a.allocate taken attempts = (none, a') := by
  induction attempts generalizing a with
  | zero => exact ⟨a, rfl⟩
  | succ attempts ih =>
    have hpass : taken a.candidate := h _ fun h0 => Nat.ne_of_gt a.candidate_pos (by rw [h0]; rfl)
    rw [allocate, if_pos hpass]
    exact ih a.advance

end Negotiation.Allocator
