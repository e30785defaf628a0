import Negotiation.Text.Parts

/-!
What the parts of a text are. A text has one part more than slashes, no part holds a slash, and the first
is what stands before the first slash; the text is its parts with slashes between them.
-/

namespace Negotiation.Parts

theorem length_cut (s : List Char) : (cut s).length = s.count '/' + 1 := by
  induction s with
  | nil => rfl
  | cons c r ih =>
    rw [cut]
    split
    · next hc => rw [List.length_cons, ih, hc, List.count_cons_self]
    · next hc =>
      rw [List.count_cons_of_ne hc]
      split
      · next hr => exact absurd hr (cut_ne_nil r)
      · next p ps hr => rw [← ih, hr, List.length_cons, List.length_cons]

theorem not_mem_of_mem_cut {s p : List Char} (h : p ∈ cut s) : '/' ∉ p := by
  induction s generalizing p with
  | nil => simp_all [cut]
  | cons c r ih =>
    rw [cut] at h
    split at h
    · rcases List.mem_cons.1 h with rfl | h
      · exact List.not_mem_nil
      · exact ih h
    · next hc =>
      split at h
      · next hr => exact absurd hr (cut_ne_nil r)
      · next p' ps hr =>
        rcases List.mem_cons.1 h with rfl | h
        · have hp' : '/' ∉ p' := ih (hr ▸ List.mem_cons_self)
          simp [Ne.symm hc, hp']
        · exact ih (hr ▸ List.mem_cons_of_mem _ h)

theorem head?_cut (s : List Char) : (cut s).head? = some (s.takeWhile (· ≠ '/')) := by
  induction s with
  | nil => rfl
  | cons c r ih =>
    rw [cut]
    split
    · next hc => simp [hc]
    · next hc =>
      split
      · next hr => exact absurd hr (cut_ne_nil r)
      · next p ps hr =>
        rw [hr] at ih
        simpa [hc] using ih

/-! ### Parts as texts -/

variable {s p : String}

theorem ofText_ne_nil (s : String) : ofText s ≠ [] := by
  rw [ofText, Ne, List.map_eq_nil_iff]
  exact cut_ne_nil _

/-- A text has one part more than slashes. -/
theorem length_ofText (s : String) : (ofText s).length = s.toList.count '/' + 1 := by
  rw [ofText, List.length_map, length_cut]

theorem not_mem_of_mem_ofText (h : p ∈ ofText s) : '/' ∉ p.toList := by
  obtain ⟨q, hq, rfl⟩ := List.mem_map.1 h
  rw [String.toList_ofList]
  exact not_mem_of_mem_cut hq

/-- The first part stands before the first slash. -/
theorem head?_ofText (s : String) :
    (ofText s).head? = some (String.ofList (s.toList.takeWhile (· ≠ '/'))) := by
  rw [ofText, List.head?_map, head?_cut]
  rfl

theorem text_ofText (s : String) : text (ofText s) = s := by
  have hparts : ((cut s.toList).map String.ofList).map String.toList = cut s.toList := by
    rw [List.map_map]
    simp [Function.comp_def]
  rw [text, ofText, hparts, join_cut, String.ofList_toList]

end Negotiation.Parts
