/-!
Texts in parts that are separated by slashes. `cut` and `join` undo each other: joining what was cut
gives the text, and cutting what was joined gives the parts when none of them holds a slash.
-/

namespace Negotiation.Parts

/-- The parts between the slashes; a text without a slash is one part. -/
def cut : List Char → List (List Char)
  | [] => [[]]
  | c :: r =>
    if c = '/' then [] :: cut r
    else
      match cut r with
      | [] => [[c]]
      | p :: ps => (c :: p) :: ps

/-- The parts with slashes between them. -/
def join : List (List Char) → List Char
  | [] => []
  | [p] => p
  | p :: q :: ps => p ++ '/' :: join (q :: ps)

/-- The parts of a text. -/
def ofText (s : String) : List String := (cut s.toList).map String.ofList

/-- The text of some parts. -/
def text (parts : List String) : String := String.ofList (join (parts.map String.toList))

theorem cut_ne_nil (s : List Char) : cut s ≠ [] := by
  cases s with
  | nil => simp [cut]
  | cons c r =>
    rw [cut]
    split
    · simp
    · split <;> simp

theorem join_cut (s : List Char) : join (cut s) = s := by
  induction s with
  | nil => rfl
  | cons c r ih =>
    rw [cut]
    split
    · next hc =>
      cases hr : cut r with
      | nil => exact absurd hr (cut_ne_nil r)
      | cons p ps => rw [join, ← hr, ih, hc]; rfl
    · split
      · next hr => exact absurd hr (cut_ne_nil r)
      · next p ps hr =>
        rw [hr] at ih
        cases ps with
        | nil => simpa [join] using ih
        | cons q qs => simpa [join] using ih

theorem cut_append {p : List Char} (hp : '/' ∉ p) (s : List Char) :
    cut (p ++ '/' :: s) = p :: cut s := by
  induction p with
  | nil => simp [cut]
  | cons c r ih =>
    have hc : c ≠ '/' := fun h => hp (h ▸ List.mem_cons_self)
    simp [cut, hc, ih fun h => hp (List.mem_cons_of_mem _ h)]

theorem cut_of_not_mem {p : List Char} (hp : '/' ∉ p) : cut p = [p] := by
  induction p with
  | nil => rfl
  | cons c r ih =>
    have hc : c ≠ '/' := fun h => hp (h ▸ List.mem_cons_self)
    simp [cut, hc, ih fun h => hp (List.mem_cons_of_mem _ h)]

theorem cut_join {p : List Char} {ps : List (List Char)} (h : ∀ x ∈ p :: ps, '/' ∉ x) :
    cut (join (p :: ps)) = p :: ps := by
  induction ps generalizing p with
  | nil => exact cut_of_not_mem (h p List.mem_cons_self)
  | cons q qs ih =>
    rw [join, cut_append (h p List.mem_cons_self)]
    rw [ih fun x hx => h x (List.mem_cons_of_mem _ hx)]

end Negotiation.Parts
