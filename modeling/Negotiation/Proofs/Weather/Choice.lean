import Negotiation.Weather.Client

/-!
The choice of a client. The best of some offers is one of them, and none of them is cheaper, or as
cheap and of a lower number.
-/

namespace Negotiation.Weather.Client

/-- An offer is cheaper than another, or as cheap and of a number that is not higher. -/
def NoWorse (a b : DialogueId × Offer) : Prop :=
  a.2.price < b.2.price ∨ a.2.price = b.2.price ∧ a.1 ≤ b.1

theorem NoWorse.price_le {a b : DialogueId × Offer} (h : NoWorse a b) : a.2.price ≤ b.2.price := by
  rcases h with h | ⟨h, -⟩
  · exact Int64.le_of_lt h
  · exact h ▸ Int64.le_refl _

theorem NoWorse.refl (a : DialogueId × Offer) : NoWorse a a := .inr ⟨rfl, UInt32.le_refl _⟩

theorem NoWorse.trans {a b c : DialogueId × Offer} (hab : NoWorse a b) (hbc : NoWorse b c) :
    NoWorse a c := by
  rcases hab with hab | ⟨hab, hab'⟩ <;> rcases hbc with hbc | ⟨hbc, hbc'⟩
  · exact .inl (Int64.lt_trans hab hbc)
  · exact .inl (hbc ▸ hab)
  · exact .inl (hab ▸ hbc)
  · exact .inr ⟨hab.trans hbc, UInt32.le_trans hab' hbc'⟩

theorem noWorse_of_better {a b : DialogueId × Offer} (h : better a b) : NoWorse a b := by
  simp only [better, Bool.or_eq_true, Bool.and_eq_true, decide_eq_true_eq] at h
  exact h.imp_right fun ⟨hp, hi⟩ => ⟨hp, UInt32.le_of_lt hi⟩

theorem noWorse_of_not_better {a b : DialogueId × Offer} (h : ¬ better a b) : NoWorse b a := by
  simp only [better, Bool.or_eq_true, Bool.and_eq_true, decide_eq_true_eq, not_or, not_and] at h
  rcases Int64.lt_or_le b.2.price a.2.price with hlt | hle
  · exact .inl hlt
  · have heq : a.2.price = b.2.price := Int64.le_antisymm hle (Int64.not_lt.1 h.1)
    exact .inr ⟨heq.symm, UInt32.not_lt.1 (h.2 heq)⟩

theorem best?_spec (l : List (DialogueId × Offer)) (hl : l ≠ []) :
    ∃ b ∈ l, best? l = some b ∧ ∀ o ∈ l, NoWorse b o := by
  induction l with
  | nil => exact absurd rfl hl
  | cons o rest ih =>
    rw [best?]
    by_cases hrest : rest = []
    · subst hrest
      exact ⟨o, List.mem_cons_self, rfl, by simpa using NoWorse.refl o⟩
    · obtain ⟨b, hb, heq, hall⟩ := ih hrest
      rw [heq]
      by_cases hbo : better b o
      · refine ⟨b, List.mem_cons_of_mem _ hb, if_pos hbo, List.forall_mem_cons.2 ⟨?_, hall⟩⟩
        exact noWorse_of_better hbo
      · refine ⟨o, List.mem_cons_self, if_neg hbo, List.forall_mem_cons.2 ⟨.refl o, fun o' ho' => ?_⟩⟩
        exact (noWorse_of_not_better hbo).trans (hall o' ho')

end Negotiation.Weather.Client
