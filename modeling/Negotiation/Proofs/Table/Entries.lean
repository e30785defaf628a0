import Negotiation.Dialogue.Table
import Negotiation.Proofs.Dialogue.Allocator
import Negotiation.Proofs.Dialogue.Steps
import Negotiation.Proofs.SortedMap

/-!
What the operations of a table do to its entries. Each operation that succeeds puts one dialogue in
place, which its inversion lemma names; the sweep works on every entry by itself. Two tables with the
same limits, allocator and entries are equal, so a dialogue put in place and removed again leaves no
trace.
-/

namespace Negotiation.Table

variable {t t' : Table} {id id' : DialogueId} {d d' : Dialogue} {now : Millis}

/-! ### Entries -/

theorem get?_put (t : Table) (d : Dialogue) (id : DialogueId) :
    (t.put d).get? id = if d.id = id then some d else t.get? id :=
  SortedMap.get?_insert ..

theorem get?_remove (t : Table) (id id' : DialogueId) :
    (t.remove id).get? id' = if id = id' then none else t.get? id' :=
  SortedMap.get?_erase ..

@[simp] theorem get?_new (limits : Limits) (start : UInt32) (id : DialogueId) :
    (new limits start).get? id = none := rfl

theorem contains_iff (t : Table) (id : DialogueId) : t.contains id ↔ ∃ d, t.get? id = some d :=
  Option.isSome_iff_exists

theorem ext_get? (hl : t.limits = t'.limits) (ha : t.allocator = t'.allocator)
    (h : ∀ id, t.get? id = t'.get? id) : t = t' := by
  obtain ⟨limits, allocator, dialogues⟩ := t
  obtain ⟨limits', allocator', dialogues'⟩ := t'
  obtain rfl : limits = limits' := hl
  obtain rfl : allocator = allocator' := ha
  obtain rfl : dialogues = dialogues' := SortedMap.ext_get? h
  rfl

theorem put_put (t : Table) (h : d.id = d'.id) : (t.put d).put d' = t.put d' :=
  ext_get? rfl rfl fun id => by
    rw [get?_put, get?_put, get?_put, h]
    split <;> rfl

theorem put_of_get? (h : t.get? d.id = some d) : t.put d = t :=
  ext_get? rfl rfl fun id => by
    rw [get?_put]
    split
    · next he => rw [← he, h]
    · rfl

theorem remove_put (t : Table) (h : t.get? d.id = none) : (t.put d).remove d.id = t :=
  ext_get? rfl rfl fun id => by
    rw [get?_remove, get?_put]
    split
    · next he => rw [← he, h]
    · rfl

/-! ### Inversion -/

theorem get_eq_ok_iff : t.get id = .ok d ↔ t.get? id = some d := by
  rw [get]
  cases t.get? id <;> simp

theorem send_eq_ok_iff {step : Step} {home : Address} {stamp : Stamp} :
    t.send id step home now = .ok (stamp, t') ↔
    ∃ d d', t.get? id = some d ∧ d.send step home now = .ok (stamp, d') ∧ t' = t.put d' := by
  simp only [send, Result.bind_eq_ok_iff, get_eq_ok_iff, Prod.exists, Except.ok.injEq, Prod.mk.injEq]
  constructor
  · rintro ⟨d, hd, stamp', d', hs, rfl, rfl⟩
    exact ⟨d, d', hd, hs, rfl⟩
  · rintro ⟨d, d', hd, hs, rfl⟩
    exact ⟨d, hd, stamp, d', hs, rfl, rfl⟩

theorem apply_eq_ok_iff {event : Transition} {s : State} :
    t.apply id event now = .ok (s, t') ↔
    ∃ d d', t.get? id = some d ∧ d.apply event now = .ok d' ∧ s = d'.state ∧ t' = t.put d' := by
  simp only [apply, Result.bind_eq_ok_iff, get_eq_ok_iff, Except.ok.injEq, Prod.mk.injEq]
  constructor
  · rintro ⟨d, hd, d', ha, rfl, rfl⟩
    exact ⟨d, d', hd, ha, rfl, rfl⟩
  · rintro ⟨d, d', hd, ha, rfl, rfl⟩
    exact ⟨d, hd, d', ha, rfl, rfl⟩

/-- A message goes to the dialogue of its number, or to a new one when there is none and room for it. -/
theorem receive_eq_ok_iff {m : Message} {route : Route} :
    t.receive m route now = .ok (d', t') ↔
    ((∃ d, t.get? m.dialogue = some d ∧ d.receive m route now = .ok d') ∨
      (t.get? m.dialogue = none ∧ m.body.step.opens ∧ ¬ t.isFull ∧
        (Dialogue.new m.dialogue m.origin .responder now).receive m route now = .ok d')) ∧
    t' = t.put d' := by
  rw [receive]
  cases hg : t.get? m.dialogue with
  | some d =>
    simp only [Result.bind_eq_ok_iff, Except.ok.injEq, Prod.mk.injEq, Option.some.injEq,
      exists_eq_left', reduceCtorEq, false_and, or_false]
    constructor
    · rintro ⟨d', hd, rfl, rfl⟩
      exact ⟨hd, rfl⟩
    · rintro ⟨hd, rfl⟩
      exact ⟨d', hd, rfl, rfl⟩
  | none =>
    simp only [reduceCtorEq, false_and, exists_false, false_or, true_and]
    by_cases ho : m.body.step.opens
    · by_cases hf : t.isFull
      · simp [ho, hf]
      · simp only [ho, hf, not_true_eq_false, if_false, true_and, Result.bind_eq_ok_iff,
          Except.ok.injEq, Prod.mk.injEq, Bool.false_eq_true, not_false_eq_true]
        constructor
        · rintro ⟨d', hd, rfl, rfl⟩
          exact ⟨hd, rfl⟩
        · rintro ⟨hd, rfl⟩
          exact ⟨d', hd, rfl, rfl⟩
    · simp [ho]

theorem allocate_fresh {taken : DialogueId → Bool} {attempts : Nat} {a a' : Allocator}
    (h : a.allocate taken attempts = (some id, a')) : taken id = false := by
  induction attempts generalizing a with
  | zero => cases h
  | succ attempts ih =>
    rw [Allocator.allocate] at h
    split at h
    · exact ih h
    · next ht =>
      obtain ⟨rfl, -⟩ : a.candidate = id ∧ a.advance = a' := by simpa using h
      simpa using ht

/-- Opening puts a new dialogue under a free number, or changes no dialogue. -/
theorem openOutbound_cases (t : Table) (peer : Address) (now : Millis) :
    (∃ a, t.openOutbound peer now = (.error t.full, { t with allocator := a })) ∨
    ∃ id a, t.get? id = none ∧ t.openOutbound peer now =
      (.ok id, { t with allocator := a }.put (Dialogue.new id peer .initiator now)) := by
  rw [openOutbound]
  split
  · exact .inl ⟨t.allocator, rfl⟩
  · split
    · next id a h =>
      refine .inr ⟨id, a, ?_, rfl⟩
      have hf : t.contains id = false := allocate_fresh h
      exact Option.isSome_eq_false_iff.1 hf |> Option.isNone_iff_eq_none.1
    · next a h => exact .inl ⟨a, rfl⟩

/-! ### The sweep -/

/-- What a sweep leaves of a dialogue. -/
def swept (l : Limits) (now : Millis) (d : Dialogue) : Option Dialogue :=
  some ((timeOut? l now d).getD d) |>.filter fun d => !d.isExpired now l.keeping

theorem timeOut?_id {l : Limits} (h : timeOut? l now d = some d') :
    d'.id = d.id := by
  rw [timeOut?] at h
  split at h
  · cases ha : d.apply .timeout now with
    | error f => rw [ha] at h; cases h
    | ok d₁ =>
      rw [ha] at h
      exact Option.some.inj h ▸ Dialogue.apply_id ha
  · cases h

theorem get?_sweep (t : Table) (now : Millis) (id : DialogueId) :
    (t.sweep now).2.get? id = (t.get? id).bind (swept t.limits now) := by
  rw [sweep, get?, SortedMap.get?_filter, SortedMap.get?_map, get?]
  cases t.dialogues.get? id <;> rfl

/-- A dialogue that survives a sweep is unchanged, or it was timed out. -/
theorem swept_eq_some {l : Limits} (h : swept l now d = some d') :
    d' = d ∨ (d.isClosed = false ∧ d.apply .timeout now = .ok d') := by
  rw [swept, Option.filter_eq_some_iff, Option.some.injEq] at h
  obtain ⟨rfl, -⟩ := h
  rw [timeOut?]
  split
  · next hi =>
    cases ha : d.apply .timeout now with
    | error f => exact .inl rfl
    | ok d' =>
      rw [Dialogue.isIdle, Bool.and_eq_true, Bool.not_eq_true'] at hi
      exact .inr ⟨hi.1, rfl⟩
  · exact .inl rfl

end Negotiation.Table
