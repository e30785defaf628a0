import Negotiation.Proofs.Table.Retention

/-!
The sweep. A live dialogue is timed out when the inactivity window has passed since its last step, a
closed one is removed when the retention window has passed since it was closed, and what was just timed
out goes at once only if nothing is kept. The order in which the dialogues come makes no difference, and
a second sweep at the same time finds nothing to do. Main statement: `sweeps_by_the_windows`.
-/

namespace Negotiation

/-! ### Windows -/

namespace Limits

/-- A window is as long as its seconds, or the longest of whole seconds that the clock counts. -/
structure Clamped (seconds : UInt64) (window : Millis) : Prop where
  nonneg : 0 ≤ window
  fits : window ≤ 0x7FFFFFFFFFFFFFFF
  exact : seconds.toNat * 1000 ≤ 0x7FFFFFFFFFFFFFFF → window = seconds.toNat * 1000
  cut : 0x7FFFFFFFFFFFFFFF < seconds.toNat * 1000 → window = 0x7FFFFFFFFFFFFFFF / 1000 * 1000

theorem clamped_window (seconds : UInt64) : Clamped seconds (window seconds) := by
  constructor <;> simp only [window, longest, Millis] <;> omega

theorem window_eq_zero_iff {seconds : UInt64} : window seconds = 0 ↔ seconds = 0 := by
  simp only [← UInt64.toNat_inj, UInt64.toNat_zero, window, longest, Millis]
  omega

end Limits

/-! ### One dialogue -/

namespace Dialogue

variable {d : Dialogue} {now : Millis}

/-- A dialogue as it is timed out. -/
def timedOutAt (d : Dialogue) (now : Millis) : Dialogue :=
  { d with state := .closed .timedOut, updatedAt := now, closedAt := some now }

theorem Coherent.apply_timeout (h : d.Coherent) (hopen : d.isClosed = false) (now : Millis) :
    d.apply .timeout now = .ok (d.timedOutAt now) := by
  have hnext : d.state.next? .timeout = some (.closed .timedOut) := by
    cases hs : d.state with
    | closed reason => simp [isClosed, State.isClosed, hs] at hopen
    | _ => rfl
  have htime : d.closedAt = none := not_not.1 (mt h.closed_iff.2 (by simp [hopen]))
  refine apply_eq_ok_iff.2 ⟨_, hnext, ?_⟩
  rw [if_neg (by simp [hopen]), touch, htime]
  rfl

end Dialogue

namespace Table

variable {t t' : Table} {l : Limits} {id : DialogueId} {d d' : Dialogue} {now : Millis}

/-- A dialogue that is live and has been quiet for the inactivity window. -/
def Quiet (l : Limits) (now : Millis) (d : Dialogue) : Prop :=
  d.isClosed = false ∧ l.inactivity ≤ now - d.updatedAt

/-- A dialogue that has been closed for the retention window. -/
def Past (l : Limits) (now : Millis) (d : Dialogue) : Prop :=
  d.isClosed ∧ ∃ time, d.closedAt = some time ∧ l.keeping ≤ now - time

/-- A dialogue that a sweep removes: one closed long ago, or one just timed out if nothing is kept. -/
def Leaves (l : Limits) (now : Millis) (d : Dialogue) : Prop :=
  Past l now d ∨ (Quiet l now d ∧ l.retention = 0)

theorem isIdle_iff : d.isIdle now l.inactivity ↔ Quiet l now d := by
  simp [Dialogue.isIdle, Quiet]

theorem timeOut?_of_quiet (h : d.Coherent) (hq : Quiet l now d) :
    timeOut? l now d = some (d.timedOutAt now) := by
  rw [timeOut?, if_pos (isIdle_iff.2 hq), h.apply_timeout hq.1]
  rfl

theorem timeOut?_of_not_quiet (hq : ¬ Quiet l now d) : timeOut? l now d = none := by
  rw [timeOut?, if_neg (mt isIdle_iff.1 hq)]

theorem isExpired_iff_past (h : d.Coherent) : d.isExpired now l.keeping ↔ Past l now d := by
  constructor
  · intro he
    cases htime : d.closedAt with
    | none => simp [Dialogue.isExpired, htime] at he
    | some time => exact ⟨h.closed_iff.2 (by simp [htime]), time, htime, (isExpired_iff htime _).1 he⟩
  · rintro ⟨-, time, htime, hlate⟩
    exact (isExpired_iff htime _).2 hlate

theorem isExpired_timedOutAt (d : Dialogue) (l : Limits) (now : Millis) :
    (d.timedOutAt now).isExpired now l.keeping ↔ l.retention = 0 := by
  have hnonneg : 0 ≤ l.keeping := (Limits.clamped_window l.retention).nonneg
  rw [isExpired_iff rfl, Int.sub_self, ← Limits.window_eq_zero_iff]
  exact ⟨fun hle => Int.le_antisymm hle hnonneg, fun heq => Int.le_of_eq heq⟩

/-- Whether a dialogue goes is decided as the first pass of the sweep left it. -/
theorem isExpired_getD_iff (h : d.Coherent) :
    ((timeOut? l now d).getD d).isExpired now l.keeping ↔ Leaves l now d := by
  by_cases hq : Quiet l now d
  · have hlive : ¬ Past l now d := fun hp => Bool.false_ne_true (hq.1.symm.trans hp.1)
    rw [timeOut?_of_quiet h hq, Option.getD_some, isExpired_timedOutAt]
    simp [Leaves, hq, hlive]
  · rw [timeOut?_of_not_quiet hq, Option.getD_none, isExpired_iff_past h]
    simp [Leaves, hq]

theorem swept_of_leaves (h : d.Coherent) (hl : Leaves l now d) : swept l now d = none := by
  simp [swept, Option.filter, (isExpired_getD_iff h).2 hl]

theorem swept_of_stays (h : d.Coherent) (hl : ¬ Leaves l now d) :
    swept l now d = some ((timeOut? l now d).getD d) := by
  simp [swept, Option.filter, mt (isExpired_getD_iff h).1 hl]

/-- Nothing is left to do for a dialogue that a sweep leaves. -/
theorem not_leaves_of_swept (h : d.Coherent) (hs : swept l now d = some d') :
    ¬ Quiet l now d' ∧ ¬ Leaves l now d' := by
  have hstays : ¬ Leaves l now d := fun hl => by simp [swept_of_leaves h hl] at hs
  rw [swept_of_stays h hstays] at hs
  by_cases hq : Quiet l now d
  · obtain rfl : d.timedOutAt now = d' := by simpa [timeOut?_of_quiet h hq] using hs
    have hclosed : ¬ Quiet l now (d.timedOutAt now) := fun hq' => Bool.false_ne_true hq'.1.symm
    have hkept : l.retention ≠ 0 := fun hr => hstays (.inr ⟨hq, hr⟩)
    refine ⟨hclosed, ?_⟩
    rintro (⟨-, time, htime, hlate⟩ | ⟨hq', -⟩)
    · exact hkept ((isExpired_timedOutAt d l now).1 ((isExpired_iff htime _).2 hlate))
    · exact hclosed hq'
  · obtain rfl : d = d' := by simpa [timeOut?_of_not_quiet hq] using hs
    exact ⟨hq, hstays⟩

/-! ### The reports -/

/-- A table whose dialogues' notes agree with their states. -/
def Coherent (t : Table) : Prop := ∀ id d, t.get? id = some d → d.Coherent

theorem mem_timedOut_iff (hc : t.Coherent) : d' ∈ (t.sweep now).1.timedOut ↔
    ∃ id d, t.get? id = some d ∧ Quiet t.limits now d ∧ d' = d.timedOutAt now := by
  simp only [sweep, List.mem_filterMap, SortedMap.mem_values_iff]
  constructor
  · rintro ⟨d, ⟨id, hd⟩, ht⟩
    by_cases hq : Quiet t.limits now d
    · rw [timeOut?_of_quiet (hc id d hd) hq] at ht
      exact ⟨id, d, hd, hq, (Option.some.inj ht).symm⟩
    · rw [timeOut?_of_not_quiet hq] at ht
      cases ht
  · rintro ⟨id, d, hd, hq, rfl⟩
    exact ⟨d, ⟨id, hd⟩, timeOut?_of_quiet (hc id d hd) hq⟩

theorem mem_evicted_iff (hc : t.Coherent) : id ∈ (t.sweep now).1.evicted ↔
    ∃ d, t.get? id = some d ∧ Leaves t.limits now d := by
  simp only [sweep, SortedMap.mem_keys_iff, SortedMap.get?_filter, SortedMap.get?_map,
    Option.filter_eq_some_iff, Option.map_eq_some_iff]
  constructor
  · rintro ⟨d', ⟨d, hd, rfl⟩, he⟩
    exact ⟨d, hd, (isExpired_getD_iff (hc id d hd)).1 he⟩
  · rintro ⟨d, hd, hl⟩
    exact ⟨_, ⟨d, hd, rfl⟩, (isExpired_getD_iff (hc id d hd)).2 hl⟩

/-- The dialogues of a table are held in the order of their numbers. -/
theorem pairwise_values (hk : t.Keyed) : t.dialogues.values.Pairwise fun a b => a.id < b.id := by
  refine List.pairwise_map.2 (t.dialogues.sorted.imp_of_mem fun {a b} ha hb hlt => ?_)
  rw [hk a.1 a.2 (SortedMap.mem_toList_iff.1 ha), hk b.1 b.2 (SortedMap.mem_toList_iff.1 hb)]
  exact hlt

theorem pairwise_timedOut (hk : t.Keyed) (now : Millis) :
    (t.sweep now).1.timedOut.Pairwise fun a b => a.id < b.id := by
  refine List.pairwise_filterMap.2 ((pairwise_values hk).imp fun hlt a' ha b' hb => ?_)
  rw [timeOut?_id ha, timeOut?_id hb]
  exact hlt

theorem pairwise_evicted (t : Table) (now : Millis) : (t.sweep now).1.evicted.Pairwise (· < ·) :=
  SortedMap.pairwise_keys _

/-! ### Any order of the entries -/

/-- The first pass over the entries, in the order in which they come: who is timed out, and the entries
behind it. -/
def timingOut (l : Limits) (now : Millis) (entries : List (DialogueId × Dialogue)) :
    List Dialogue × List (DialogueId × Dialogue) :=
  (entries.filterMap fun e => timeOut? l now e.2, entries.map fun e => (e.1, (timeOut? l now e.2).getD e.2))

/-- The second pass over the entries, in the order in which they come: the numbers of those that go, and
the entries that are left. -/
def evicting (l : Limits) (now : Millis) (entries : List (DialogueId × Dialogue)) :
    List DialogueId × List (DialogueId × Dialogue) :=
  let (gone, left) := entries.partition fun e => e.2.isExpired now l.keeping
  (gone.map (·.1), left)

theorem sort_timingOut (hk : t.Keyed) {entries : List (DialogueId × Dialogue)}
    (h : entries.Perm t.dialogues.toList) (now : Millis) :
    (timingOut t.limits now entries).1.mergeSort (fun a b => a.id ≤ b.id) = (t.sweep now).1.timedOut := by
  refine SortedMap.mergeSort_eq_of_ascending Dialogue.id ?_ (pairwise_timedOut hk now)
  rw [sweep, SortedMap.values, List.filterMap_map]
  exact h.filterMap _

theorem perm_timingOut {entries : List (DialogueId × Dialogue)} (h : entries.Perm t.dialogues.toList)
    (now : Millis) : (timingOut t.limits now entries).2.Perm
      (t.dialogues.map fun _ d => (timeOut? t.limits now d).getD d).toList :=
  h.map _

theorem evicting_of_perm {entries entries' : List (DialogueId × Dialogue)}
    (h : entries.Perm t.dialogues.toList) (h' : entries'.Perm (timingOut t.limits now entries).2) :
    (evicting t.limits now entries').1.mergeSort (· ≤ ·) = (t.sweep now).1.evicted ∧
    (evicting t.limits now entries').2.Perm (t.sweep now).2.dialogues.toList := by
  have hperm := h'.trans (perm_timingOut h now)
  rw [evicting, List.partition_eq_filter_filter]
  constructor
  · exact SortedMap.mergeSort_eq_of_ascending id ((hperm.filter _).map _) (t.pairwise_evicted now)
  · exact hperm.filter _

/-! ### The whole sweep -/

/-- What a sweep reports of a table, and the table it leaves. -/
structure Sweeps (t : Table) (now : Millis) (s : Sweep) (t' : Table) : Prop where
  timedOut : ∀ d', d' ∈ s.timedOut ↔
    ∃ id d, t.get? id = some d ∧ Quiet t.limits now d ∧ d' = d.timedOutAt now
  evicted : ∀ id, id ∈ s.evicted ↔ ∃ d, t.get? id = some d ∧ Leaves t.limits now d
  gone : ∀ id, id ∈ s.evicted → t'.get? id = none
  closed : ∀ id d, t.get? id = some d → id ∉ s.evicted → Quiet t.limits now d →
    t'.get? id = some (d.timedOutAt now)
  unchanged : ∀ id d, t.get? id = some d → id ∉ s.evicted → ¬ Quiet t.limits now d → t'.get? id = some d
  nothing_new : ∀ id, t.get? id = none → t'.get? id = none
  apart : t'.limits = t.limits ∧ t'.allocator = t.allocator
  ascending : s.timedOut.Pairwise (fun a b => a.id < b.id) ∧ s.evicted.Pairwise (· < ·)

theorem WellKept.sweeps (h : t.WellKept) (now : Millis) :
    t.Sweeps now (t.sweep now).1 (t.sweep now).2 := by
  have hstays : ∀ id d, t.get? id = some d → id ∉ (t.sweep now).1.evicted →
      (t.sweep now).2.get? id = some ((timeOut? t.limits now d).getD d) := fun id d hd hid => by
    have hl : ¬ Leaves t.limits now d := fun hl => hid ((mem_evicted_iff h.coherent).2 ⟨d, hd, hl⟩)
    rw [get?_sweep, hd]
    exact swept_of_stays (h.coherent id d hd) hl
  exact {
    timedOut := fun d' => mem_timedOut_iff h.coherent
    evicted := fun id => mem_evicted_iff h.coherent
    gone := fun id hid => by
      obtain ⟨d, hd, hl⟩ := (mem_evicted_iff h.coherent).1 hid
      rw [get?_sweep, hd]
      exact swept_of_leaves (h.coherent id d hd) hl
    closed := fun id d hd hid hq => by
      rw [hstays id d hd hid, timeOut?_of_quiet (h.coherent id d hd) hq]
      rfl
    unchanged := fun id d hd hid hq => by
      rw [hstays id d hd hid, timeOut?_of_not_quiet hq]
      rfl
    nothing_new := fun id hn => by
      rw [get?_sweep, hn]
      rfl
    apart := ⟨rfl, rfl⟩
    ascending := ⟨pairwise_timedOut h.keyed now, t.pairwise_evicted now⟩ }

/-- A second sweep at the same time finds nothing to do. -/
theorem WellKept.sweep_sweep (h : t.WellKept) (now : Millis) :
    (t.sweep now).2.sweep now = (⟨[], []⟩, (t.sweep now).2) := by
  have hdone : ∀ id d, (t.sweep now).2.get? id = some d →
      ¬ Quiet t.limits now d ∧ ¬ Leaves t.limits now d := fun id d' hd' => by
    rw [get?_sweep] at hd'
    obtain ⟨d, hd, hs⟩ := Option.bind_eq_some_iff.1 hd'
    exact not_leaves_of_swept (h.coherent id d hd) hs
  have hs : Sweeps _ _ _ _ := (h.call (.sweep now)).sweeps now
  have htimedOut : ((t.sweep now).2.sweep now).1.timedOut = [] :=
    List.eq_nil_iff_forall_not_mem.2 fun d' hd' => by
      obtain ⟨id, d, hd, hq, -⟩ := (hs.timedOut d').1 hd'
      exact (hdone id d hd).1 hq
  have hevicted : ((t.sweep now).2.sweep now).1.evicted = [] :=
    List.eq_nil_iff_forall_not_mem.2 fun id hid => by
      obtain ⟨d, hd, hl⟩ := (hs.evicted id).1 hid
      exact (hdone id d hd).2 hl
  refine Prod.ext (congrArg₂ Sweep.mk htimedOut hevicted) (ext_get? rfl rfl fun id => ?_)
  cases hd : (t.sweep now).2.get? id with
  | none => exact hs.nothing_new id hd
  | some d => exact hs.unchanged id d hd (hevicted ▸ List.not_mem_nil) (hdone id d hd).1

/-- SWEEPING: in every table that comes about by its operations, whatever its windows are and at every
    time, a sweep reports as timed out just the live dialogues that have been quiet for the inactivity
    window, each as it was but for being closed by timeout at that time. It reports and removes just
    those closed for the retention window, and the ones just timed out if that window is empty. What was
    timed out and stays is held as reported, everything else as before, and both reports ascend by
    number. Whatever order the entries come in, each of the two passes, sorted in the end, gives the same
    report and leaves the same entries. A second sweep at the same time reports and changes nothing. The
    windows are those of the limits in milliseconds, cut to what the clock counts. -/
theorem sweeps_by_the_windows (ht : t.Reachable) (now : Millis) :
    let (report, t') := t.sweep now
    t.Sweeps now report t' ∧
    (∀ entries entries', entries.Perm t.dialogues.toList →
      entries'.Perm (timingOut t.limits now entries).2 →
        (timingOut t.limits now entries).1.mergeSort (fun a b => a.id ≤ b.id) = report.timedOut ∧
        (evicting t.limits now entries').1.mergeSort (· ≤ ·) = report.evicted ∧
        (evicting t.limits now entries').2.Perm t'.dialogues.toList) ∧
    t'.sweep now = (⟨[], []⟩, t') ∧
    Limits.Clamped t.limits.inactivityTimeout t.limits.inactivity ∧
    Limits.Clamped t.limits.retention t.limits.keeping :=
  ⟨ht.wellKept.sweeps now,
    fun _ _ h h' => ⟨sort_timingOut ht.keyed h now, evicting_of_perm h h'⟩,
    ht.wellKept.sweep_sweep now, Limits.clamped_window _, Limits.clamped_window _⟩

/-- Five minutes on, a call without an answer is closed, and one that was called off is gone; the entries
in the other order give the same. -/
theorem swept_after_five_minutes :
    let call : Message :=
      { answer := 1, dialogue := 7, origin := .ofKey "bob", target := 0, body := .cfp .nothing }
    let t := (new {} 1).run
      [.receive call (call.route (.ofKey "alice")) 0, .openOutbound (.ofKey "bob") 0, .apply 1 .cancel 5]
    let r := t.sweep 300000
    (∃ d, t.get? 7 = some d ∧ d.timedOutAt 300000 ∈ r.1.timedOut ∧
      r.2.get? 7 = some (d.timedOutAt 300000)) ∧
    1 ∈ r.1.evicted ∧ r.2.get? 1 = none ∧
    (timingOut t.limits 300000 t.dialogues.toList.reverse).1.mergeSort (fun a b => a.id ≤ b.id) =
      r.1.timedOut ∧
    r.2.sweep 300000 = (⟨[], []⟩, r.2) := by
  intro call t r
  obtain ⟨hsweeps, horder, hagain, -⟩ := sweeps_by_the_windows (t := t) ⟨{}, 1, _, rfl⟩ 300000
  obtain ⟨d, hd, hquiet⟩ : ∃ d, t.get? 7 = some d ∧ Quiet t.limits 300000 d := ⟨_, rfl, rfl, by decide⟩
  obtain ⟨d₁, hd₁, hpast⟩ : ∃ d, t.get? 1 = some d ∧ Past t.limits 300000 d :=
    ⟨_, rfl, rfl, 5, rfl, by decide⟩
  have hkept : 7 ∉ r.1.evicted := fun h => by
    obtain ⟨d', hd', hl⟩ := (hsweeps.evicted 7).1 h
    obtain rfl : d = d' := Option.some.inj (hd.symm.trans hd')
    rcases hl with ⟨hclosed, -⟩ | ⟨-, hretention⟩
    · exact Bool.false_ne_true (hquiet.1.symm.trans hclosed)
    · exact absurd hretention (by decide)
  have hgone : 1 ∈ r.1.evicted := (hsweeps.evicted 1).2 ⟨d₁, hd₁, .inl hpast⟩
  exact ⟨⟨d, hd, (hsweeps.timedOut _).2 ⟨7, d, hd, hquiet, rfl⟩, hsweeps.closed 7 d hd hkept hquiet⟩,
    hgone, hsweeps.gone 1 hgone, (horder _ _ (List.reverse_perm _) (.refl _)).1, hagain⟩

end Table

end Negotiation
