import Negotiation.Proofs.Table.Answers
import Negotiation.Proofs.Table.Upkeep

/-!
The dialogues of a table are kept apart. `only` is the table of one dialogue, with the limits and the
allocator of the whole. A call that names the dialogue finds and does the same in both, as long as
there is room; a call that names another does nothing to the lone table, and a sweep does to it what it
does to its part of the whole. Main statement: `separation`.
-/

namespace Negotiation

/-- What a sweep did to one dialogue. -/
def Sweep.about (s : Sweep) (id : DialogueId) : Sweep :=
  ⟨s.timedOut.filter fun d => d.id = id, s.evicted.filter fun id' => id' = id⟩

namespace SortedMap

variable {κ α : Type} [LT κ]

theorem size_filter_le (m : SortedMap κ α) (p : κ → α → Bool) : (m.filter p).size ≤ m.size :=
  List.length_filter_le ..

theorem keys_filter (m : SortedMap κ α) (p : κ → Bool) : (m.filter fun k _ => p k).keys = m.keys.filter p :=
  List.filter_map.symm

end SortedMap

namespace Table

/-- The table of one dialogue of a table. -/
def only (t : Table) (id : DialogueId) : Table :=
  { t with dialogues := t.dialogues.filter fun id' _ => id' = id }

/-- What an answer says of one dialogue. -/
def Answer.about (a : Answer) (id : DialogueId) : Answer :=
  match a with
  | .swept s => .swept (s.about id)
  | a => a

/-- Whether a call concerns a dialogue: it names it, or it is a sweep. -/
def Call.concerns (id : DialogueId) : Call → Bool
  | .sweep _ => true
  | c => c.target? = some id

/-- No call was refused for want of room. -/
def HadRoom (l : List (Call × Answer)) : Prop := ∀ p ∈ l, ∀ n, p.2.failure? ≠ some (.tableFull n)

variable {t : Table} {c c' : Call} {id id' : DialogueId}

/-! ### The table of one dialogue -/

theorem get?_only (t : Table) (id id' : DialogueId) :
    (t.only id).get? id' = if id' = id then t.get? id' else none := by
  rw [get?, only, SortedMap.get?_filter, get?]
  cases t.dialogues.get? id' <;> simp [Option.filter]

theorem get?_only_self (t : Table) (id : DialogueId) : (t.only id).get? id = t.get? id := by
  rw [get?_only, if_pos rfl]

theorem only_put (t : Table) {d : Dialogue} (h : d.id = id) : (t.put d).only id = (t.only id).put d :=
  ext_get? rfl rfl fun id' => by
    simp only [get?_only, get?_put, h]
    by_cases hid : id' = id
    · simp [hid]
    · simp [hid, Ne.symm hid]

theorem only_remove (t : Table) (id : DialogueId) : (t.remove id).only id = (t.only id).remove id :=
  ext_get? rfl rfl fun id' => by
    simp only [get?_only, get?_remove]
    by_cases hid : id' = id
    · simp [hid]
    · simp [hid, Ne.symm hid]

/-- A table with room has room for one of its dialogues. -/
theorem isFull_only (h : ¬ t.isFull) : ¬ (t.only id).isFull := by
  rw [isFull, decide_eq_true_iff, Nat.not_le] at h ⊢
  exact (SortedMap.size_filter_le ..).trans_lt h

/-! ### A call that names the dialogue -/

/-- Two results that come of one, over a table and over the table of a dialogue. -/
def Alike {α : Type} (t : Table) (id : DialogueId) (whole lone : Except Failure (α × Table)) : Prop :=
  ∃ r : Except Failure (α × Dialogue), (∀ a d, r = .ok (a, d) → d.id = id) ∧
    whole = r.map (fun p => (p.1, t.put p.2)) ∧ lone = r.map fun p => (p.1, (t.only id).put p.2)

section Alike

variable {α : Type} {whole lone : Except Failure (α × Table)}

theorem Alike.error (t : Table) (id : DialogueId) (f : Failure) :
    t.Alike (α := α) id (.error f) (.error f) :=
  ⟨.error f, fun _ _ h => (nomatch h), rfl, rfl⟩

theorem Alike.map_fst (h : t.Alike id whole lone) : lone.map (·.1) = whole.map (·.1) := by
  obtain ⟨r, -, rfl, rfl⟩ := h
  cases r <;> rfl

theorem Alike.behind (h : t.Alike id whole lone) : (t.only id).behind lone = (t.behind whole).only id := by
  obtain ⟨r, hid, rfl, rfl⟩ := h
  cases r with
  | error f => rfl
  | ok p => exact (only_put t (hid p.1 p.2 rfl)).symm

end Alike

theorem alike_receive (hk : t.Keyed) {m : Message} {route : Route} {now : Millis}
    (hroom : ∀ n, t.receive m route now ≠ .error (.tableFull n)) :
    t.Alike m.dialogue (t.receive m route now) ((t.only m.dialogue).receive m route now) := by
  -- both pass the message to one dialogue
  have hpass : ∀ d : Dialogue, d.id = m.dialogue →
      t.receive m route now = (d.receive m route now).map (fun d' => (d', t.put d')) →
      (t.only m.dialogue).receive m route now =
        (d.receive m route now).map (fun d' => (d', (t.only m.dialogue).put d')) →
      t.Alike m.dialogue (t.receive m route now) ((t.only m.dialogue).receive m route now) := by
    intro d hid hwhole hlone
    refine ⟨(d.receive m route now).map fun d' => (d', d'), fun a d' h => ?_, ?_, ?_⟩
    · cases hr : d.receive m route now with
      | error f => rw [hr] at h; cases h
      | ok d₁ =>
        rw [hr] at h
        obtain ⟨-, rfl⟩ := Prod.mk.inj (Except.ok.inj h)
        exact (Dialogue.receive_id hr).trans hid
    · rw [hwhole]; cases d.receive m route now <;> rfl
    · rw [hlone]; cases d.receive m route now <;> rfl
  have hget := t.get?_only_self m.dialogue
  cases hd : t.get? m.dialogue with
  | some d =>
    exact hpass d (hk _ _ hd) (receive_held hd route now) (receive_held (hget.trans hd) route now)
  | none =>
    by_cases ho : m.body.step.opens
    · by_cases hf : t.isFull
      · refine absurd ?_ (hroom t.limits.maxDialogues)
        exact (answersUnheld hd route now).full.2 ⟨opens_iff.1 ho, of_decide_eq_true hf⟩
      · exact hpass (.new m.dialogue m.origin .responder now) rfl (receive_unheld hd ho hf route now)
          (receive_unheld (hget.trans hd) ho (isFull_only hf) route now)
    · have hne := mt opens_iff.2 ho
      rw [(answersUnheld hd route now).unknown.2 hne,
        (answersUnheld (hget.trans hd) route now).unknown.2 hne]
      exact .error t m.dialogue _

theorem alike_send (hk : t.Keyed) (id : DialogueId) (step : Step) (home : Address) (now : Millis) :
    t.Alike id (t.send id step home now) ((t.only id).send id step home now) := by
  have hget := t.get?_only_self id
  rw [send, send, get, get, hget]
  cases hd : t.get? id with
  | none => exact .error t id _
  | some d =>
    refine ⟨d.send step home now, fun stamp d' h => (Dialogue.send_id h).trans (hk _ _ hd), ?_, ?_⟩
    all_goals
      cases hs : d.send step home now <;> simp [hs, Except.map, bind, Except.bind]

theorem alike_apply (hk : t.Keyed) (id : DialogueId) (event : Transition) (now : Millis) :
    t.Alike id (t.apply id event now) ((t.only id).apply id event now) := by
  have hget := t.get?_only_self id
  rw [apply, apply, get, get, hget]
  cases hd : t.get? id with
  | none => exact .error t id _
  | some d =>
    refine ⟨(d.apply event now).map fun d' => (d'.state, d'), fun s d' h => ?_, ?_, ?_⟩
    · cases ha : d.apply event now with
      | error f => rw [ha] at h; cases h
      | ok d₁ =>
        rw [ha] at h
        obtain ⟨-, rfl⟩ := Prod.mk.inj (Except.ok.inj h)
        exact (Dialogue.apply_id ha).trans (hk _ _ hd)
    all_goals
      cases ha : d.apply event now <;> simp [ha, Except.map, bind, Except.bind]

/-- Creation, with the dialogue put in place as it was stepped. -/
def creation (t : Table) (id : DialogueId) (counterparty : Address) (role : Role) (now : Millis)
    (calls : List Dialogue.Call) : Except Failure (Dialogue × Table) :=
  (t.createOrGet id counterparty role now).map fun p => (p.1, t.put (p.1.run calls))

theorem call_createOrGet (t : Table) (id : DialogueId) (counterparty : Address) (role : Role)
    (now : Millis) (calls : List Dialogue.Call) : t.call (.createOrGet id counterparty role now calls) =
      t.behind (t.creation id counterparty role now calls) := by
  rw [call, creation]
  cases hc : t.createOrGet id counterparty role now with
  | error f => rfl
  | ok p =>
    rcases createOrGet_eq_ok_iff.1 hc with ⟨-, -, ht⟩ | ⟨-, -, -, ht⟩
    · simp [Except.map, behind, ht]
    · simp only [Except.map, behind, ht]
      exact put_put t (p.1.run_id calls).symm

theorem alike_creation (hk : t.Keyed) {id : DialogueId} {counterparty : Address} {role : Role}
    {now : Millis} (calls : List Dialogue.Call)
    (hroom : ∀ n, t.createOrGet id counterparty role now ≠ .error (.tableFull n)) :
    t.Alike id (t.creation id counterparty role now calls)
      ((t.only id).creation id counterparty role now calls) := by
  -- the dialogue that both give
  have hgive : ∀ d : Dialogue, d.id = id → t.Alike id (.ok (d, t.put (d.run calls)))
      (.ok (d, (t.only id).put (d.run calls))) := by
    intro d hid
    refine ⟨.ok (d, d.run calls), fun a d' h => ?_, rfl, rfl⟩
    obtain ⟨-, rfl⟩ := Prod.mk.inj (Except.ok.inj h)
    exact (d.run_id calls).trans hid
  have hget := t.get?_only_self id
  rw [createOrGet] at hroom
  rw [creation, creation, createOrGet, createOrGet, hget]
  cases hd : t.get? id with
  | some d =>
    by_cases hs : d.counterparty.sameAgent counterparty
    · simp only [hs, if_true]
      exact hgive d (hk _ _ hd)
    · simp only [hs, Bool.false_eq_true, if_false]
      exact .error t id _
  | none =>
    by_cases hf : t.isFull
    · simp [hd, hf, full] at hroom
    · simp only [hf, isFull_only hf, Bool.false_eq_true, if_false]
      exact hgive _ rfl

/-- A call that names a dialogue finds and does the same in the table of the dialogue. -/
theorem call_only (hk : t.Keyed) (h : c.target? = some id)
    (hroom : ∀ n, (t.answer c).failure? ≠ some (.tableFull n)) :
    (t.only id).answer c = t.answer c ∧ (t.only id).call c = (t.call c).only id := by
  cases c with
  | createOrGet id₀ counterparty role now calls =>
    obtain rfl := Option.some.inj h
    have hroom : ∀ n, t.createOrGet id₀ counterparty role now ≠ .error (.tableFull n) :=
      fun n hf => hroom n (by rw [answer, hf]; rfl)
    have ha := alike_creation hk calls hroom
    rw [call_createOrGet, call_createOrGet]
    refine ⟨?_, ha.behind⟩
    rw [answer, answer]
    have hfst := ha.map_fst
    rw [creation, creation] at hfst
    revert hfst
    cases t.createOrGet id₀ counterparty role now <;>
      cases (t.only id₀).createOrGet id₀ counterparty role now <;> simp [Except.map]
  | openOutbound counterparty now => cases h
  | receive m route now =>
    obtain rfl := Option.some.inj h
    have ha := alike_receive hk fun n hf => hroom n (by rw [answer, hf]; rfl)
    exact ⟨congrArg Answer.dialogue ha.map_fst, ha.behind⟩
  | send id₀ step home now =>
    obtain rfl := Option.some.inj h
    have ha := alike_send hk id₀ step home now
    exact ⟨congrArg Answer.stamp ha.map_fst, ha.behind⟩
  | apply id₀ event now =>
    obtain rfl := Option.some.inj h
    have ha := alike_apply hk id₀ event now
    exact ⟨congrArg Answer.state ha.map_fst, ha.behind⟩
  | remove id₀ =>
    obtain rfl := Option.some.inj h
    exact ⟨congrArg Answer.removed (t.get?_only_self id₀), (only_remove t id₀).symm⟩
  | sweep now => cases h

/-- A call that names another dialogue does nothing to the table of this one. -/
theorem only_call_of_ne (hk : t.Keyed) (h : c.target? = some id') (hne : id' ≠ id) :
    (t.call c).only id = t.only id := by
  have hopen : ∀ counterparty now, c ≠ .openOutbound counterparty now := by
    rintro counterparty now rfl
    cases h
  refine ext_get? (t.becomes_call c).limits (allocator_call hk hopen) fun id₀ => ?_
  rw [get?_only, get?_only]
  split
  · next hid => rw [get?_call_of_target hk h (hid ▸ hne.symm)]
  · rfl

/-! ### The sweep -/

/-- A sweep does to the table of a dialogue what it does to its part of the whole. -/
theorem sweep_only (hk : t.Keyed) (id : DialogueId) (now : Millis) :
    (t.only id).sweep now = ((t.sweep now).1.about id, (t.sweep now).2.only id) := by
  have htimed : ((t.only id).sweep now).1.timedOut = ((t.sweep now).1.about id).timedOut := by
    simp only [sweep, only, Sweep.about, SortedMap.values, SortedMap.filter, List.filterMap_map,
      List.filterMap_filter, List.filter_filterMap]
    refine List.filterMap_congr fun e he => ?_
    have hid : e.2.id = e.1 := hk e.1 e.2 (SortedMap.mem_toList_iff.1 he)
    cases hf : timeOut? t.limits now e.2 with
    | none => simp [hf]
    | some d => simp [hf, Option.filter, timeOut?_id hf, hid]
  -- what a condition on the dialogues leaves of the swept table, it leaves of its part
  have hpart : ∀ p : Dialogue → Bool,
      ((t.only id).dialogues.map fun _ d => (timeOut? t.limits now d).getD d).filter (fun _ d => p d) =
      ((t.dialogues.map fun _ d => (timeOut? t.limits now d).getD d).filter fun _ d => p d).filter
        fun id' _ => id' = id := by
    intro p
    refine SortedMap.ext_get? fun id' => ?_
    simp only [only, SortedMap.get?_filter, SortedMap.get?_map]
    cases t.dialogues.get? id' with
    | none => by_cases hid : id' = id <;> simp [hid]
    | some d =>
      by_cases hid : id' = id
      · simp [hid, Option.filter]
        split <;> rfl
      · simp [hid, Option.filter]
        split <;> rfl
  have hevicted : ((t.only id).sweep now).1.evicted = ((t.sweep now).1.about id).evicted :=
    (congrArg SortedMap.keys (hpart _)).trans (SortedMap.keys_filter ..)
  have htable : ((t.only id).sweep now).2 = (t.sweep now).2.only id :=
    congrArg (fun m => { t with dialogues := m }) (hpart _)
  rw [← Prod.eta ((t.only id).sweep now), htable]
  exact congrArg (·, _) (by rw [Sweep.mk.injEq]; exact ⟨htimed, hevicted⟩)

/-! ### Runs -/

theorem concerns_iff : c.concerns id ↔ c.target? = some id ∨ ∃ now, c = .sweep now := by
  cases c <;> simp [Call.concerns, Call.target?]

theorem about_of_target (t : Table) (h : c.target? = some id) : (t.answer c).about id = t.answer c := by
  cases c with
  | sweep now => cases h
  | _ => rfl

/-- A call that concerns a dialogue finds and does in its table what it does in the whole. -/
theorem concern_only (hk : t.Keyed) (h : c.concerns id)
    (hroom : ∀ n, (t.answer c).failure? ≠ some (.tableFull n)) :
    (t.only id).answer c = (t.answer c).about id ∧ (t.only id).call c = (t.call c).only id := by
  rcases concerns_iff.1 h with h | ⟨now, rfl⟩
  · rw [about_of_target t h]
    exact call_only hk h hroom
  · have hs := sweep_only hk id now
    exact ⟨congrArg Answer.swept (congrArg Prod.fst hs), congrArg Prod.snd hs⟩

/-- A call that does not concern a dialogue does nothing to its table. -/
theorem only_call_of_not_concerns (hk : t.Keyed) (h : ¬ c.concerns id)
    (hopen : ∀ peer now, c ≠ .openOutbound peer now) : (t.call c).only id = t.only id := by
  rw [concerns_iff, not_or, not_exists] at h
  cases hid : c.target? with
  | some id' => exact only_call_of_ne hk hid fun he => h.1 (he ▸ hid)
  | none =>
    cases c with
    | openOutbound peer now => exact absurd rfl (hopen peer now)
    | sweep now => exact absurd rfl (h.2 now)
    | _ => cases hid

/-- The calls of a run that concern a dialogue are answered by its own table as they are by the whole. -/
theorem log_only (hk : t.Keyed) {cs : List Call} (hopen : ∀ c ∈ cs, ∀ peer now, c ≠ .openOutbound peer now)
    (hroom : HadRoom (t.log cs)) (id : DialogueId) :
    (t.only id).log (cs.filter (·.concerns id)) =
      ((t.log cs).filter (·.1.concerns id)).map (fun p => (p.1, p.2.about id)) ∧
    (t.only id).run (cs.filter (·.concerns id)) = (t.run cs).only id := by
  induction cs generalizing t with
  | nil => exact ⟨rfl, rfl⟩
  | cons c cs ih =>
    obtain ⟨hlog, hrun⟩ := ih (hk.call c) (fun c' hc' => hopen c' (List.mem_cons_of_mem c hc'))
      (fun p hp => hroom p (List.mem_cons_of_mem _ hp))
    by_cases hc : c.concerns id
    · obtain ⟨ha, hnext⟩ := concern_only hk hc (hroom _ List.mem_cons_self)
      have hhead : (t.log (c :: cs)).filter (·.1.concerns id) =
          (c, t.answer c) :: ((t.call c).log cs).filter (·.1.concerns id) := List.filter_cons_of_pos hc
      rw [List.filter_cons_of_pos hc, hhead, List.map_cons, ← hlog, ← ha, ← hnext]
      exact ⟨rfl, (congrArg (run · _) hnext).trans hrun⟩
    · have hnext := only_call_of_not_concerns hk hc (hopen c List.mem_cons_self)
      have htail : (t.log (c :: cs)).filter (·.1.concerns id) =
          ((t.call c).log cs).filter (·.1.concerns id) := List.filter_cons_of_neg hc
      rw [List.filter_cons_of_neg hc, htail, ← hnext]
      exact ⟨hlog, hrun⟩

/-- A call finds and does the same before and behind a call that names another dialogue. -/
theorem call_after_other (hk : t.Keyed) (h : c.target? = some id) (h' : c'.target? = some id')
    (hne : id' ≠ id) (hroom : ∀ n, (t.answer c).failure? ≠ some (.tableFull n))
    (hroom' : ∀ n, ((t.call c').answer c).failure? ≠ some (.tableFull n)) :
    (t.call c').answer c = t.answer c ∧ ((t.call c').call c).get? id = (t.call c).get? id := by
  obtain ⟨ha, hc⟩ := call_only hk h hroom
  obtain ⟨ha', hc'⟩ := call_only (hk.call c') h hroom'
  rw [only_call_of_ne hk h' hne] at ha' hc'
  refine ⟨ha'.symm.trans ha, ?_⟩
  rw [← get?_only_self, ← hc', hc, get?_only_self]

/-- Calls that name two dialogues have the same answers and effects in both orders. -/
theorem calls_commute (hk : t.Keyed) (h : c.target? = some id) (h' : c'.target? = some id')
    (hne : id ≠ id') (hroom : HadRoom (t.log [c, c'])) (hroom' : HadRoom (t.log [c', c])) :
    t.run [c, c'] = t.run [c', c] ∧ (t.call c').answer c = t.answer c ∧
      (t.call c).answer c' = t.answer c' := by
  obtain ⟨ha, hget⟩ := call_after_other hk h h' hne.symm (hroom _ List.mem_cons_self)
    (hroom' _ (List.mem_cons_of_mem _ List.mem_cons_self))
  obtain ⟨ha', hget'⟩ := call_after_other hk h' h hne (hroom' _ List.mem_cons_self)
    (hroom _ (List.mem_cons_of_mem _ List.mem_cons_self))
  have hstay : ∀ {c : Call} {id : DialogueId}, c.target? = some id →
      ∀ counterparty now, c ≠ .openOutbound counterparty now := by
    rintro c id h counterparty now rfl
    cases h
  have hallocator : (t.run [c, c']).allocator = (t.run [c', c]).allocator :=
    ((allocator_call (hk.call c) (hstay h')).trans (allocator_call hk (hstay h))).trans
      ((allocator_call (hk.call c') (hstay h)).trans (allocator_call hk (hstay h'))).symm
  refine ⟨ext_get? ?_ hallocator fun id₀ => ?_, ha, ha'⟩
  · rw [limits_run, limits_run]
  · show ((t.call c).call c').get? id₀ = ((t.call c').call c).get? id₀
    by_cases hid : id₀ = id
    · rw [hid, hget, get?_call_of_target (hk.call c) h' hne]
    · by_cases hid' : id₀ = id'
      · rw [hid', hget', get?_call_of_target (hk.call c') h hne.symm]
      · rw [get?_call_of_target (hk.call c) h' hid', get?_call_of_target hk h hid,
          get?_call_of_target (hk.call c') h hid, get?_call_of_target hk h' hid']

/-- SEPARATION: in every table that comes about by its operations, whatever calls follow, opening
    apart, and as long as none of them is refused for want of room, each dialogue goes its own way. It
    is in the end what it is when only its own calls and the sweeps are made, in the table that holds
    nothing else; its calls are answered in the same way, and the sweeps report the same of it. Two
    calls that name different dialogues can change places. -/
theorem separation (ht : t.Reachable) (cs : List Call)
    (hopen : ∀ c ∈ cs, ∀ counterparty now, c ≠ .openOutbound counterparty now)
    (hroom : HadRoom (t.log cs)) (id : DialogueId) :
    let own := cs.filter (·.concerns id)
    ((t.only id).run own).get? id = (t.run cs).get? id ∧
    (t.only id).run own = (t.run cs).only id ∧
    (t.only id).log own = ((t.log cs).filter (·.1.concerns id)).map (fun p => (p.1, p.2.about id)) ∧
    ∀ c c' id₁ id₂, c.target? = some id₁ → c'.target? = some id₂ → id₁ ≠ id₂ →
      HadRoom (t.log [c, c']) → HadRoom (t.log [c', c]) →
      t.run [c, c'] = t.run [c', c] ∧ (t.call c').answer c = t.answer c ∧
      (t.call c).answer c' = t.answer c' := by
  intro own
  have hk := ht.keyed
  obtain ⟨hlog, hrun⟩ := log_only hk hopen hroom id
  refine ⟨?_, hrun, hlog, fun c c' id₁ id₂ h h' hne => calls_commute hk h h' hne⟩
  rw [hrun, get?_only_self]

/-- Of two dialogues one is completed, swept over and removed, and the other stands where its own step
    has taken it. -/
theorem other_removed_apart :
    let t := (new {} 1).run [.openOutbound (.ofKey "bob") 0, .openOutbound (.ofKey "carol") 0]
    let cs : List Call := [.send 2 .message (.ofKey "alice") 1, .send 1 .cfp (.ofKey "alice") 2,
      .apply 2 .complete 3, .sweep 4, .remove 2]
    (t.run cs).get? 1 =
      ((t.only 1).run [.send 1 .cfp (.ofKey "alice") 2, .sweep 4]).get? 1 ∧
    ((t.run cs).get? 1).map (·.state) = some .cfpSent ∧ (t.run cs).get? 2 = none := by
  intro t cs
  have hanswered : ∀ p ∈ t.log cs, p.2.failure? = none := by
    intro p hp
    have hmem : p.2.failure? ∈ (t.log cs).map (·.2.failure?) := List.mem_map_of_mem hp
    have hnone : (t.log cs).map (·.2.failure?) = List.replicate 5 none := rfl
    exact List.eq_of_mem_replicate (hnone ▸ hmem)
  have hroom : HadRoom (t.log cs) := fun p hp n => by simp [hanswered p hp]
  obtain ⟨hget, -⟩ := separation (t := t) ⟨{}, 1, _, rfl⟩ cs (by simp [cs]) hroom 1
  exact ⟨hget.symm, rfl, rfl⟩

end Table

end Negotiation
