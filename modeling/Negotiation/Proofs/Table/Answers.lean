import Negotiation.Proofs.Table.Receiving

/-!
What the calls of a table give back. A call that names a dialogue puts it in place, removes it or does
nothing; whatever it finds and answers, it concerns no other dialogue. `log` lists the calls of a run
with their answers.
-/

namespace Negotiation.Table

/-- What a call gives back. -/
inductive Answer where
  | dialogue (r : Except Failure Dialogue)
  | number (r : Except Failure DialogueId)
  | stamp (r : Except Failure Stamp)
  | state (r : Except Failure State)
  | removed (d : Option Dialogue)
  | swept (s : Sweep)

/-- The failure of a call. -/
def Answer.failure? : Answer → Option Failure
  | .dialogue (.error f) => some f
  | .number (.error f) => some f
  | .stamp (.error f) => some f
  | .state (.error f) => some f
  | _ => none

/-- The answer to a call. -/
def answer (t : Table) : Call → Answer
  | .createOrGet id counterparty role now _ =>
    .dialogue ((t.createOrGet id counterparty role now).map (·.1))
  | .openOutbound counterparty now => .number (t.openOutbound counterparty now).1
  | .receive m route now => .dialogue ((t.receive m route now).map (·.1))
  | .send id step home now => .stamp ((t.send id step home now).map (·.1))
  | .apply id event now => .state ((t.apply id event now).map (·.1))
  | .remove id => .removed (t.get? id)
  | .sweep now => .swept (t.sweep now).1

/-- The calls of a run with their answers. -/
def log : Table → List Call → List (Call × Answer)
  | _, [] => []
  | t, c :: cs => (c, t.answer c) :: log (t.call c) cs

/-- The dialogue that a call names. -/
def Call.target? : Call → Option DialogueId
  | .createOrGet id _ _ _ _ => some id
  | .openOutbound _ _ => none
  | .receive m _ _ => some m.dialogue
  | .send id _ _ _ => some id
  | .apply id _ _ => some id
  | .remove id => some id
  | .sweep _ => none

variable {t : Table} {c : Call} {id : DialogueId}

/-- A call that names a dialogue does nothing, removes the dialogue or puts it in place. -/
theorem call_of_target (hk : t.Keyed) (h : c.target? = some id) :
    t.call c = t ∨ c = .remove id ∨ ∃ d, d.id = id ∧ t.call c = t.put d := by
  cases c with
  | createOrGet id₀ counterparty role now calls =>
    obtain rfl := Option.some.inj h
    rw [call]
    split
    · next d t' hc =>
      refine .inr (.inr ⟨d.run calls, ?_, ?_⟩)
      · rw [d.run_id]
        rcases createOrGet_eq_ok_iff.1 hc with ⟨hd, -, -⟩ | ⟨-, -, rfl, -⟩
        · exact hk _ _ hd
        · rfl
      · rcases createOrGet_eq_ok_iff.1 hc with ⟨-, -, rfl⟩ | ⟨-, -, -, rfl⟩
        · rfl
        · exact put_put t (d.run_id calls).symm
    · exact .inl rfl
  | openOutbound counterparty now => cases h
  | receive m route now =>
    obtain rfl := Option.some.inj h
    rw [call]
    cases hr : t.receive m route now with
    | error f => exact .inl rfl
    | ok r =>
      obtain ⟨he, hid⟩ := receive_table hk hr
      exact .inr (.inr ⟨r.1, hid, he⟩)
  | send id₀ step home now =>
    obtain rfl := Option.some.inj h
    rw [call]
    cases hr : t.send id₀ step home now with
    | error f => exact .inl rfl
    | ok r =>
      obtain ⟨d, d', hd, hs, he⟩ := send_eq_ok_iff.1 hr
      exact .inr (.inr ⟨d', (Dialogue.send_id hs).trans (hk _ _ hd), he⟩)
  | apply id₀ event now =>
    obtain rfl := Option.some.inj h
    rw [call]
    cases hr : t.apply id₀ event now with
    | error f => exact .inl rfl
    | ok r =>
      obtain ⟨d, d', hd, ha, -, he⟩ := apply_eq_ok_iff.1 hr
      exact .inr (.inr ⟨d', (Dialogue.apply_id ha).trans (hk _ _ hd), he⟩)
  | remove id₀ =>
    obtain rfl := Option.some.inj h
    exact .inr (.inl rfl)
  | sweep now => cases h

/-- A call that names a dialogue leaves the others alone. -/
theorem get?_call_of_target (hk : t.Keyed) (h : c.target? = some id) {id' : DialogueId} (hne : id' ≠ id) :
    (t.call c).get? id' = t.get? id' := by
  rcases call_of_target hk h with hc | rfl | ⟨d, hid, hc⟩
  · rw [hc]
  · exact (get?_remove ..).trans (if_neg hne.symm)
  · rw [hc, get?_put, hid, if_neg hne.symm]

/-- Only opening moves the allocator. -/
theorem allocator_call (hk : t.Keyed) (hc : ∀ counterparty now, c ≠ .openOutbound counterparty now) :
    (t.call c).allocator = t.allocator := by
  cases hid : c.target? with
  | some id =>
    rcases call_of_target hk hid with h | rfl | ⟨d, -, h⟩
    · rw [h]
    · rfl
    · rw [h, put]
  | none =>
    cases c with
    | openOutbound counterparty now => exact absurd rfl (hc counterparty now)
    | sweep now => rfl
    | _ => cases hid

end Negotiation.Table
