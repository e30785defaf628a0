import Negotiation.Proofs.Dialogue.Sequence
import Negotiation.Proofs.Table.Entries

/-!
Runs of a table. Its operations are called in any order, with any arguments and at any times, and a
dialogue that creation gives may be stepped in place. What all operations keep holds of every table
that comes about in this way; above all, a dialogue is always held under its own number.
-/

namespace Negotiation

namespace Dialogue

/-! ### What no call changes -/

/-- What a dialogue is known by: its number, its two agents' parts in it and when it was made. -/
def identity (d : Dialogue) : DialogueId × Address × Role × Millis :=
  (d.id, d.counterparty, d.role, d.createdAt)

theorem call_identity (d : Dialogue) (c : Call) : (d.call c).2.identity = d.identity := by
  cases c with
  | receive m route now =>
    rw [call]
    cases h : d.receive m route now with
    | error f => rfl
    | ok d' =>
      obtain ⟨-, s, -, rfl⟩ := receive_eq_ok_iff.1 h
      rfl
  | send step home now =>
    rw [call]
    cases h : d.send step home now with
    | error f => rfl
    | ok r =>
      obtain ⟨s, -, -, hd⟩ := send_eq_ok_iff.1 h
      simp only [hd]
      rfl
  | apply event now =>
    rw [call]
    cases h : d.apply event now with
    | error f => rfl
    | ok d' =>
      obtain ⟨s, -, rfl⟩ := apply_eq_ok_iff.1 h
      by_cases hc : d.isClosed <;> simp [hc, identity]

theorem run_identity (d : Dialogue) (cs : List Call) : (d.run cs).identity = d.identity := by
  induction cs generalizing d with
  | nil => rfl
  | cons c cs ih => exact (ih _).trans (d.call_identity c)

theorem run_id (d : Dialogue) (cs : List Call) : (d.run cs).id = d.id :=
  congrArg Prod.fst (d.run_identity cs)

end Dialogue

namespace Table

/-- A call of one of the operations of a table. The dialogue that creation gives may be stepped in
place, by calls of its own. -/
inductive Call where
  | createOrGet (id : DialogueId) (counterparty : Address) (role : Role) (now : Millis)
      (calls : List Dialogue.Call)
  | openOutbound (counterparty : Address) (now : Millis)
  | receive (m : Message) (route : Route) (now : Millis)
  | send (id : DialogueId) (step : Step) (home : Address) (now : Millis)
  | apply (id : DialogueId) (event : Transition) (now : Millis)
  | remove (id : DialogueId)
  | sweep (now : Millis)

/-- The table behind a result, which is the one before it when there is none. -/
def behind {ε α : Type} (t : Table) : Except ε (α × Table) → Table
  | .ok (_, t') => t'
  | .error _ => t

/-- The table behind a call. -/
def call (t : Table) : Call → Table
  | .createOrGet id counterparty role now calls =>
    match t.createOrGet id counterparty role now with
    | .ok (d, t') => t'.put (d.run calls)
    | .error _ => t
  | .openOutbound counterparty now => (t.openOutbound counterparty now).2
  | .receive m route now => t.behind (t.receive m route now)
  | .send id step home now => t.behind (t.send id step home now)
  | .apply id event now => t.behind (t.apply id event now)
  | .remove id => t.remove id
  | .sweep now => (t.sweep now).2

/-- The table behind some calls. -/
def run (t : Table) (cs : List Call) : Table := cs.foldl call t

/-- A table that comes about by calls from a new one. -/
def Reachable (t : Table) : Prop := ∃ limits start cs, t = (new limits start).run cs

/-- Every dialogue is held under its own number. -/
def Keyed (t : Table) : Prop := ∀ id d, t.get? id = some d → d.id = id

variable {t : Table}

/-! ### What a call makes of a table -/

/-- Creation gives the dialogue that is held, or puts a new one in place. -/
theorem createOrGet_eq_ok_iff {id : DialogueId} {counterparty : Address} {role : Role} {now : Millis}
    {d : Dialogue} {t' : Table} : t.createOrGet id counterparty role now = .ok (d, t') ↔
    (t.get? id = some d ∧ d.counterparty.sameAgent counterparty ∧ t' = t) ∨
    (t.get? id = none ∧ ¬ t.isFull ∧ d = .new id counterparty role now ∧ t' = t.put d) := by
  rw [createOrGet]
  cases hg : t.get? id with
  | some d₀ =>
    simp only [Option.some.injEq, reduceCtorEq, false_and, or_false]
    split
    · next hs =>
      simp only [Except.ok.injEq, Prod.mk.injEq, and_congr_right_iff]
      rintro rfl
      simp [hs, eq_comm]
    · next hs =>
      simp only [reduceCtorEq, false_iff]
      rintro ⟨rfl, hs', -⟩
      exact hs hs'
  | none =>
    simp only [reduceCtorEq, false_and, true_and, false_or]
    split
    · next hf => simp [hf]
    · next hf =>
      simp only [Except.ok.injEq, Prod.mk.injEq]
      constructor
      · rintro ⟨rfl, rfl⟩
        exact ⟨hf, rfl, rfl⟩
      · rintro ⟨-, rfl, rfl⟩
        exact ⟨rfl, rfl⟩

/-- What a call can make of a table: at most one dialogue is stepped, made or removed, or all are
swept. -/
inductive Becomes (t : Table) : Table → Prop
  | kept (a : Allocator) : t.Becomes { t with allocator := a }
  | stepped {id : DialogueId} {d : Dialogue} (hd : t.get? id = some d) (cs : List Dialogue.Call) :
      t.Becomes (t.put (d.run cs))
  | made (a : Allocator) {id : DialogueId} (hn : t.get? id = none) (hroom : ¬ t.isFull)
      (counterparty : Address) (role : Role) (now : Millis) (cs : List Dialogue.Call) :
      t.Becomes ({ t with allocator := a }.put ((Dialogue.new id counterparty role now).run cs))
  | removed (id : DialogueId) : t.Becomes (t.remove id)
  | swept (now : Millis) : t.Becomes (t.sweep now).2

/-- A call that fails makes nothing of a table. -/
theorem Becomes.behind {ε α : Type} {r : Except ε (α × Table)}
    (hr : ∀ a t', r = .ok (a, t') → t.Becomes t') : t.Becomes (t.behind r) := by
  cases r with
  | error f => exact .kept t.allocator
  | ok r => exact hr r.1 r.2 rfl

theorem becomes_call (t : Table) (c : Call) : t.Becomes (t.call c) := by
  cases c with
  | createOrGet id counterparty role now calls =>
    rw [call]
    split
    · next d t' hc =>
      rcases createOrGet_eq_ok_iff.1 hc with ⟨hd, -, rfl⟩ | ⟨hn, hroom, rfl, rfl⟩
      · exact .stepped hd calls
      · -- the new dialogue is put in place twice
        rw [put_put t (Dialogue.run_id _ calls).symm]
        exact .made t.allocator hn hroom counterparty role now calls
    · exact .kept t.allocator
  | openOutbound counterparty now =>
    rw [call]
    by_cases hroom : t.isFull
    · rw [openOutbound, if_pos hroom]
      exact .kept t.allocator
    · rcases t.openOutbound_cases counterparty now with ⟨a, ho⟩ | ⟨id, a, hn, ho⟩ <;> rw [ho]
      · exact .kept a
      · exact .made a hn hroom counterparty .initiator now []
  | receive m route now =>
    refine .behind fun d' t' hr => ?_
    obtain ⟨⟨d, hd, hrec⟩ | ⟨hn, -, hroom, hrec⟩, rfl⟩ := receive_eq_ok_iff.1 hr
    · have hcall : d' = d.run [.receive m route now] := by simp [Dialogue.run, Dialogue.call, hrec]
      exact hcall ▸ .stepped hd _
    · have hcall : d' = (Dialogue.new m.dialogue m.origin .responder now).run [.receive m route now] := by
        simp [Dialogue.run, Dialogue.call, hrec]
      exact hcall ▸ .made t.allocator hn hroom m.origin .responder now _
  | send id step home now =>
    refine .behind fun stamp t' hs => ?_
    obtain ⟨d, d', hd, hsend, rfl⟩ := send_eq_ok_iff.1 hs
    have hcall : d' = d.run [.send step home now] := by simp [Dialogue.run, Dialogue.call, hsend]
    exact hcall ▸ .stepped hd _
  | apply id event now =>
    refine .behind fun s t' ha => ?_
    obtain ⟨d, d', hd, happ, -, rfl⟩ := apply_eq_ok_iff.1 ha
    have hcall : d' = d.run [.apply event now] := by simp [Dialogue.run, Dialogue.call, happ]
    exact hcall ▸ .stepped hd _
  | remove id => exact .removed id
  | sweep now => exact .swept now

/-- A dialogue behind a call is one from before, stepped, or a new one under a free number. -/
theorem Becomes.entry {t' : Table} (h : t.Becomes t') (hk : t.Keyed) {id : DialogueId} {d' : Dialogue}
    (hd' : t'.get? id = some d') : (∃ d cs, t.get? id = some d ∧ d' = d.run cs) ∨
    ∃ counterparty role now cs, t.get? id = none ∧ d' = (Dialogue.new id counterparty role now).run cs := by
  have hsame : ∀ d', t.get? id = some d' → ∃ d cs, t.get? id = some d ∧ d' = d.run cs :=
    fun d' hd' => ⟨d', [], hd', rfl⟩
  cases h with
  | kept a => exact .inl (hsame d' hd')
  | @stepped id₀ d hd cs =>
    rw [get?_put] at hd'
    split at hd'
    · next hid =>
      obtain rfl : d.run cs = d' := Option.some.inj hd'
      rw [d.run_id, hk _ _ hd] at hid
      exact .inl ⟨d, cs, hid ▸ hd, rfl⟩
    · exact .inl (hsame d' hd')
  | @made a id₀ hn hroom counterparty role now cs =>
    rw [get?_put] at hd'
    split at hd'
    · next hid =>
      obtain rfl : _ = d' := Option.some.inj hd'
      obtain rfl : id₀ = id := (Dialogue.run_id _ cs).symm.trans hid
      exact .inr ⟨counterparty, role, now, cs, hn, rfl⟩
    · exact .inl (hsame d' hd')
  | removed id₀ =>
    rw [get?_remove] at hd'
    split at hd'
    · cases hd'
    · exact .inl (hsame d' hd')
  | swept now =>
    rw [get?_sweep] at hd'
    obtain ⟨d, hd, hs⟩ := Option.bind_eq_some_iff.1 hd'
    rcases swept_eq_some hs with rfl | ⟨-, ha⟩
    · exact .inl (hsame d' hd)
    · exact .inl ⟨d, [.apply .timeout now], hd, by simp [Dialogue.run, Dialogue.call, ha]⟩

theorem Keyed.call (h : t.Keyed) (c : Call) : (t.call c).Keyed := by
  intro id d' hd'
  rcases (t.becomes_call c).entry h hd' with ⟨d, cs, hd, rfl⟩ | ⟨counterparty, role, now, cs, -, rfl⟩
  · exact (d.run_id cs).trans (h id d hd)
  · exact Dialogue.run_id _ cs

theorem Keyed.run (h : t.Keyed) (cs : List Call) : (t.run cs).Keyed := by
  induction cs generalizing t with
  | nil => exact h
  | cons c cs ih => exact ih (h.call c)

theorem Reachable.keyed (h : t.Reachable) : t.Keyed := by
  obtain ⟨limits, start, cs, rfl⟩ := h
  exact Keyed.run (fun id d hd => by simp at hd) cs

end Table

end Negotiation
