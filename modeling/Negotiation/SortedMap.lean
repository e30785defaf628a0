/-!
Finite maps kept in ascending key order. The view of a map is `get?`: each operation has one law
that says what it does to `get?`, and two maps with the same `get?` are equal. Iteration (`toList`,
`keys`, `values`) is by ascending key.
-/

namespace Negotiation

/-- A finite map: its entries in strictly ascending key order. -/
structure SortedMap (κ α : Type) [LT κ] where
  entries : List (κ × α)
  sorted : entries.Pairwise fun a b => a.1 < b.1
  deriving DecidableEq

namespace SortedMap

variable {κ α β : Type}

section Entries

variable [DecidableEq κ]

/-- The value stored first under `k`. -/
def find (k : κ) : List (κ × α) → Option α
  | [] => none
  | e :: r => if e.1 = k then some e.2 else find k r

/-- Puts `a` under `k` at its place, over an entry that is there. -/
def place [LT κ] [DecidableLT κ] (k : κ) (a : α) : List (κ × α) → List (κ × α)
  | [] => [(k, a)]
  | e :: r => if k < e.1 then (k, a) :: e :: r else if k = e.1 then (k, a) :: r else e :: place k a r

theorem find_map (f : κ → α → β) (k : κ) (l : List (κ × α)) :
    find k (l.map fun e => (e.1, f e.1 e.2)) = (find k l).map (f k) := by
  induction l with
  | nil => rfl
  | cons e r ih =>
    by_cases hk : e.1 = k
    · subst hk; simp [find]
    · simp [find, hk, ih]

section Placing

variable [LT κ] [DecidableLT κ]

theorem mem_place {k : κ} {a : α} {x : κ × α} : ∀ {l : List (κ × α)}, x ∈ place k a l →
    x = (k, a) ∨ x ∈ l
  | [], h => by simpa [place] using h
  | e :: r, h => by
    rw [place] at h
    split at h
    · simpa using h
    · split at h
      · rcases List.mem_cons.1 h with h | h
        · exact .inl h
        · exact .inr (List.mem_cons_of_mem _ h)
      · rcases List.mem_cons.1 h with h | h
        · exact .inr (h ▸ List.mem_cons_self)
        · exact (mem_place h).imp_right (List.mem_cons_of_mem _)

theorem find_place (k k' : κ) (a : α) (l : List (κ × α)) :
    find k' (place k a l) = if k = k' then some a else find k' l := by
  induction l with
  | nil => simp [place, find]
  | cons e r ih =>
    rw [place]
    split
    · simp [find]
    · split
      · next hke => subst hke; by_cases h : e.1 = k' <;> simp [find, h]
      · next hke =>
        by_cases h : e.1 = k'
        · subst h; simp [find, hke]
        · simp [find, h, ih]

end Placing

variable [LE κ] [LT κ] [Std.IsLinearOrder κ] [Std.LawfulOrderLT κ]

theorem pairwise_place [DecidableLT κ] (k : κ) (a : α) {l : List (κ × α)}
    (h : l.Pairwise fun x y => x.1 < y.1) : (place k a l).Pairwise fun x y => x.1 < y.1 := by
  induction l with
  | nil => simp [place]
  | cons e r ih =>
    have hr := List.pairwise_cons.1 h
    rw [place]
    split
    · next hk =>
      refine List.pairwise_cons.2 ⟨fun x hx => ?_, h⟩
      rcases List.mem_cons.1 hx with rfl | hx
      · exact hk
      · exact Std.lt_trans hk (hr.1 x hx)
    · split
      · next hk hke => exact List.pairwise_cons.2 ⟨fun x hx => hke ▸ hr.1 x hx, hr.2⟩
      · next hk hke =>
        refine List.pairwise_cons.2 ⟨fun x hx => ?_, ih hr.2⟩
        rcases mem_place hx with rfl | hx
        · exact Std.lt_of_le_of_ne (Std.not_lt.1 hk) (Ne.symm hke)
        · exact hr.1 x hx

omit [Std.IsLinearOrder κ] in
theorem find_eq_none_of_forall_lt {k : κ} {l : List (κ × α)} (h : ∀ x ∈ l, k < x.1) :
    find k l = none := by
  induction l with
  | nil => rfl
  | cons e r ih =>
    have he := h e List.mem_cons_self
    have hne : e.1 ≠ k := fun hk => Std.lt_irrefl (hk ▸ he)
    simp [find, hne, ih fun x hx => h x (List.mem_cons_of_mem _ hx)]

omit [Std.IsLinearOrder κ] in
theorem find_filter (p : κ → α → Bool) (k : κ) {l : List (κ × α)}
    (h : l.Pairwise fun x y => x.1 < y.1) :
    find k (l.filter fun e => p e.1 e.2) = (find k l).filter (p k) := by
  induction l with
  | nil => rfl
  | cons e r ih =>
    have hr := List.pairwise_cons.1 h
    by_cases hk : e.1 = k
    · subst hk
      have hn : find e.1 r = none := find_eq_none_of_forall_lt hr.1
      by_cases hp : p e.1 e.2
      · simp [hp, find, Option.filter]
      · simp [hp, find, ih hr.2, hn, Option.filter]
    · by_cases hp : p e.1 e.2 <;> simp [hp, find, hk, ih hr.2]

omit [Std.IsLinearOrder κ] in
theorem find_eq_some_iff {k : κ} {a : α} {l : List (κ × α)}
    (h : l.Pairwise fun x y => x.1 < y.1) : find k l = some a ↔ (k, a) ∈ l := by
  induction l with
  | nil => simp [find]
  | cons e r ih =>
    have hr := List.pairwise_cons.1 h
    by_cases hk : e.1 = k
    · subst hk
      have hn : (e.1, a) ∉ r := fun hm => Std.lt_irrefl (hr.1 (e.1, a) hm)
      simp only [find, if_true, List.mem_cons, hn, or_false, Option.some.injEq]
      exact ⟨fun ha => ha ▸ rfl, fun ha => (Prod.ext_iff.1 ha).2.symm⟩
    · have hne : (k, a) ≠ e := fun he => hk (he ▸ rfl)
      simp [find, hk, ih hr.2, hne]

theorem eq_of_find_eq {l₁ l₂ : List (κ × α)} (h₁ : l₁.Pairwise fun x y => x.1 < y.1)
    (h₂ : l₂.Pairwise fun x y => x.1 < y.1) (h : ∀ k, find k l₁ = find k l₂) : l₁ = l₂ := by
  induction l₁ generalizing l₂ with
  | nil =>
    cases l₂ with
    | nil => rfl
    | cons e r => have := h e.1; simp [find] at this
  | cons e₁ r₁ ih =>
    cases l₂ with
    | nil => have := h e₁.1; simp [find] at this
    | cons e₂ r₂ =>
      have hr₁ := List.pairwise_cons.1 h₁
      have hr₂ := List.pairwise_cons.1 h₂
      have hkey : e₁.1 = e₂.1 := by
        rcases Std.lt_trichotomy e₁.1 e₂.1 with hlt | heq | hlt
        · have hn : find e₁.1 (e₂ :: r₂) = none := find_eq_none_of_forall_lt fun x hx => by
            rcases List.mem_cons.1 hx with rfl | hx
            · exact hlt
            · exact Std.lt_trans hlt (hr₂.1 x hx)
          have := h e₁.1
          rw [hn] at this
          simp [find] at this
        · exact heq
        · have hn : find e₂.1 (e₁ :: r₁) = none := find_eq_none_of_forall_lt fun x hx => by
            rcases List.mem_cons.1 hx with rfl | hx
            · exact hlt
            · exact Std.lt_trans hlt (hr₁.1 x hx)
          have := h e₂.1
          rw [hn] at this
          simp [find] at this
      have hval : e₁.2 = e₂.2 := by
        have := h e₁.1
        simpa [find, hkey] using this
      have hrest : r₁ = r₂ := ih hr₁.2 hr₂.2 fun k => by
        by_cases hk : e₁.1 = k
        · subst hk
          rw [find_eq_none_of_forall_lt hr₁.1, find_eq_none_of_forall_lt]
          exact fun x hx => hkey ▸ hr₂.1 x hx
        · have := h k
          simpa [find, hk, hkey ▸ hk] using this
      rw [hrest, Prod.ext hkey hval]

end Entries

section Views

variable [LT κ]

/-- The map without entries. -/
def empty : SortedMap κ α := ⟨[], .nil⟩

instance : EmptyCollection (SortedMap κ α) := ⟨empty⟩

instance : Inhabited (SortedMap κ α) := ⟨empty⟩

/-- The entries by ascending key. -/
def toList (m : SortedMap κ α) : List (κ × α) := m.entries

/-- The keys in ascending order. -/
def keys (m : SortedMap κ α) : List κ := m.entries.map (·.1)

/-- The values by ascending key. -/
def values (m : SortedMap κ α) : List α := m.entries.map (·.2)

/-- The number of entries. -/
def size (m : SortedMap κ α) : Nat := m.entries.length

/-- Whether there are no entries. -/
def isEmpty (m : SortedMap κ α) : Bool := m.entries.isEmpty

/-- Keeps the entries that satisfy `p`. -/
def filter (m : SortedMap κ α) (p : κ → α → Bool) : SortedMap κ α :=
  ⟨m.entries.filter fun e => p e.1 e.2, m.sorted.sublist List.filter_sublist⟩

/-- Changes every value. -/
def map (m : SortedMap κ α) (f : κ → α → β) : SortedMap κ β :=
  ⟨m.entries.map fun e => (e.1, f e.1 e.2), List.pairwise_map.2 m.sorted⟩

variable [DecidableEq κ]

/-- The value under a key. -/
def get? (m : SortedMap κ α) (k : κ) : Option α := find k m.entries

/-- Whether a key has a value. -/
def contains (m : SortedMap κ α) (k : κ) : Bool := (m.get? k).isSome

/-- Removes a key. -/
def erase (m : SortedMap κ α) (k : κ) : SortedMap κ α := m.filter fun k' _ => k' ≠ k

@[simp] theorem get?_empty (k : κ) : (empty : SortedMap κ α).get? k = none := rfl

theorem get?_map (m : SortedMap κ α) (f : κ → α → β) (k : κ) :
    (m.map f).get? k = (m.get? k).map (f k) := find_map f k _

end Views

section Laws

variable [LE κ] [LT κ] [DecidableLT κ] [DecidableEq κ] [Std.IsLinearOrder κ] [Std.LawfulOrderLT κ]

/-- Puts a value under a key, over an earlier one. -/
def insert (m : SortedMap κ α) (k : κ) (a : α) : SortedMap κ α :=
  ⟨place k a m.entries, pairwise_place k a m.sorted⟩

/-- The map of a list of pairs; of two pairs with one key the later counts. -/
def ofList (l : List (κ × α)) : SortedMap κ α := l.foldl (fun m e => m.insert e.1 e.2) empty

theorem get?_insert (m : SortedMap κ α) (k k' : κ) (a : α) :
    (m.insert k a).get? k' = if k = k' then some a else m.get? k' := find_place k k' a _

omit [DecidableLT κ]

omit [Std.IsLinearOrder κ] in
theorem get?_filter (m : SortedMap κ α) (p : κ → α → Bool) (k : κ) :
    (m.filter p).get? k = (m.get? k).filter (p k) := find_filter p k m.sorted

omit [Std.IsLinearOrder κ] in
theorem get?_erase (m : SortedMap κ α) (k k' : κ) :
    (m.erase k).get? k' = if k = k' then none else m.get? k' := by
  rw [erase, get?_filter]
  by_cases h : k = k'
  · subst h; cases m.get? k <;> simp [Option.filter]
  · cases m.get? k' <;> simp [Option.filter, h, Ne.symm h]

theorem ext_get? {m₁ m₂ : SortedMap κ α} (h : ∀ k, m₁.get? k = m₂.get? k) : m₁ = m₂ := by
  cases m₁ with
  | mk l₁ h₁ =>
    cases m₂ with
    | mk l₂ h₂ => congr 1; exact eq_of_find_eq h₁ h₂ h

omit [Std.IsLinearOrder κ] in
theorem mem_toList_iff {m : SortedMap κ α} {k : κ} {a : α} :
    (k, a) ∈ m.toList ↔ m.get? k = some a := (find_eq_some_iff m.sorted).symm

end Laws

end SortedMap

end Negotiation
