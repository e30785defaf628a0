import Negotiation.Proofs.Table.Entries

/-!
The number of a new dialogue. A table opens a dialogue under the first non-zero number from its
allocator's place on that is not held. The numbers that are passed over are held, so there are no more
of them than dialogues, and one try more gets past them. Main statement: `opens_at_first_free`.
-/

namespace Negotiation.Table

open Allocator

variable {t : Table} {id : DialogueId}

theorem contains_eq_false_iff (t : Table) (id : DialogueId) : t.contains id = false ↔ t.get? id = none :=
  Option.isSome_eq_false_iff.trans Option.isNone_iff_eq_none

theorem not_isFull_iff (t : Table) : ¬ t.isFull ↔ t.size < t.limits.capacity := by
  rw [isFull, decide_eq_true_iff, Nat.not_le]

/-- If the first numbers of a round are held, there are no more of them than dialogues. -/
theorem le_size_of_contains {k : Nat} {start : UInt32} (hround : k ≤ round)
    (h : ∀ j, j < k → t.contains (circle start j)) : k ≤ t.size := by
  have hheld : ∀ id, t.contains id → id ∈ t.dialogues.keys := fun id hid =>
    SortedMap.mem_keys_iff.2 ((t.contains_iff id).1 hid)
  rw [size, ← SortedMap.length_keys]
  exact le_length_of_taken hround hheld h

/-- With room and a free number, the first free one is opened. -/
theorem openOutbound_of_free (hroom : ¬ t.isFull) (hid : id ≠ 0) (hfree : t.get? id = none)
    (peer : Address) (now : Millis) : ∃ k, k < round ∧ FirstFree t.contains t.allocator.next k ∧
      let id := circle t.allocator.next k
      t.openOutbound peer now =
        (.ok id, { t with allocator := ⟨id + 1⟩ }.put (.new id peer .initiator now)) := by
  obtain ⟨k, hround, hk⟩ := exists_firstFree t.allocator.next hid ((t.contains_eq_false_iff id).2 hfree)
  have hlt : k < t.size + 1 := Nat.lt_succ_of_le (le_size_of_contains (Nat.le_of_lt hround) hk.passed)
  refine ⟨k, hround, hk, ?_⟩
  rw [openOutbound, if_neg hroom, allocate_eq_some hlt hk]

/-- Without room or a free number, only the allocator moves. -/
theorem openOutbound_of_not_free (h : ¬ (¬ t.isFull ∧ ∃ id, id ≠ 0 ∧ t.get? id = none)) (peer : Address)
    (now : Millis) : ∃ a, t.openOutbound peer now = (.error t.full, { t with allocator := a }) := by
  rw [openOutbound]
  by_cases hfull : t.isFull
  · exact ⟨t.allocator, if_pos hfull⟩
  · have htaken : ∀ id, id ≠ 0 → t.contains id := fun id hid =>
      eq_true_of_ne_false fun hfree => h ⟨hfull, id, hid, (t.contains_eq_false_iff id).1 hfree⟩
    obtain ⟨a, ha⟩ := allocate_eq_none htaken (t.size + 1) t.allocator
    rw [if_neg hfull, ha]
    exact ⟨a, rfl⟩

/-- A table with room has a free number, if there are more numbers than dialogues. -/
theorem openOutbound_ok (peer : Address) (now : Millis) (hroom : ¬ t.isFull) (hround : t.size < round) :
    ∃ id a, t.get? id = none ∧ t.openOutbound peer now =
      (.ok id, { t with allocator := a }.put (.new id peer .initiator now)) := by
  have hfree : ∃ j, j < round ∧ t.contains (circle t.allocator.next j) = false := by
    by_contra hnone
    have hall : ∀ j, j < round → t.contains (circle t.allocator.next j) := fun j hj =>
      eq_true_of_ne_false fun hf => hnone ⟨j, hj, hf⟩
    exact Nat.not_le.2 hround (le_size_of_contains (Nat.le_refl round) hall)
  obtain ⟨j, -, hj⟩ := hfree
  obtain ⟨k, -, hk, ho⟩ :=
    openOutbound_of_free hroom (circle_ne_zero _ j) ((t.contains_eq_false_iff _).1 hj) peer now
  exact ⟨_, _, (t.contains_eq_false_iff _).1 hk.free, ho⟩

/-- OPENING: whatever numbers a table holds and wherever its allocator stands, a dialogue is opened just
    when there is room and a non-zero number is free. Its number is then not zero, was not held by any
    dialogue, live or closed, and is the first such number on the circle from the allocator's place on;
    but for the allocator, which has moved behind it, the table has changed by a new idle dialogue of the
    initiator under that number only. Otherwise the failure is that of a full table, and the dialogues
    stay as they are. -/
theorem opens_at_first_free (t : Table) (peer : Address) (now : Millis) :
    let r := t.openOutbound peer now
    ((∃ id, r.1 = .ok id) ↔ t.size < t.limits.capacity ∧ ∃ id, id ≠ 0 ∧ t.get? id = none) ∧
    (∀ id, r.1 = .ok id → id ≠ 0 ∧ t.get? id = none ∧
      (∃ k, k < round ∧ id = circle t.allocator.next k ∧
        ∀ j, j < k → t.contains (circle t.allocator.next j)) ∧
      r.2 = { t with allocator := ⟨id + 1⟩ }.put
        { id, counterparty := peer, role := .initiator, state := .idle, createdAt := now
          updatedAt := now }) ∧
    ∀ f, r.1 = .error f → f = .tableFull t.limits.maxDialogues ∧ ∃ a, r.2 = { t with allocator := a } := by
  intro r
  by_cases h : ¬ t.isFull ∧ ∃ id, id ≠ 0 ∧ t.get? id = none
  · obtain ⟨hroom, id₀, hid, hfree⟩ := h
    obtain ⟨k, hround, hk, hr⟩ := openOutbound_of_free hroom hid hfree peer now
    have hr : r = _ := hr
    rw [hr]
    refine ⟨iff_of_true ⟨_, rfl⟩ ⟨t.not_isFull_iff.1 hroom, id₀, hid, hfree⟩, ?_, by rintro f ⟨⟩⟩
    rintro id ⟨⟩
    exact ⟨circle_ne_zero _ _, (t.contains_eq_false_iff _).1 hk.free, ⟨k, hround, rfl, hk.passed⟩, rfl⟩
  · obtain ⟨a, hr⟩ := openOutbound_of_not_free h peer now
    have hr : r = _ := hr
    rw [hr]
    refine ⟨iff_of_false (by simp) (by rwa [← t.not_isFull_iff]), by rintro id ⟨⟩, ?_⟩
    rintro f ⟨⟩
    exact ⟨rfl, a, rfl⟩

/-- From the last number on, behind which 0 is passed over and 1 is held, 2 is the first free one. -/
theorem opened_over_the_end :
    let d : Dialogue := .new 0xFFFFFFFF (.ofKey "carol") .responder 0
    let t := ((Table.new {} 0xFFFFFFFF).put d).put { d with id := 1 }
    let r := t.openOutbound (.ofKey "bob") 5
    r.1 = .ok 2 ∧ t.get? 2 = none ∧ r.2.allocator = ⟨3⟩ ∧
      ∃ k, k < round ∧ 2 = circle 0xFFFFFFFF k ∧ ∀ j, j < k → t.contains (circle 0xFFFFFFFF j) := by
  intro d t r
  have hr : r.1 = .ok 2 := by decide
  obtain ⟨-, hok, -⟩ := opens_at_first_free t (.ofKey "bob") 5
  obtain ⟨-, hfree, hfirst, htable⟩ := hok 2 hr
  exact ⟨hr, hfree, congrArg Table.allocator htable, hfirst⟩

end Negotiation.Table
