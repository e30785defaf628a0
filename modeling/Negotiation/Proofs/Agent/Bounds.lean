import Negotiation.Agent.Engine

/-!
How long an application goes on. Performing actions takes a bound on their number, since an application
that asks for more whenever an action fails need not come to an end. A result does not depend on the bound
that it was found with. An application that has only so much left to ask for (`Handler.Spends`) comes to an
end, and one that always does (`Handler.Settles`) does so on every event, every sweep and every run.
-/

namespace Negotiation

/-- An application comes to an end over a transport, whatever it has asked for. -/
def Handler.Settles {β σ : Type} (h : Handler σ) (T : Transport β) : Prop :=
  ∀ (now : Millis) (s : Linked β) (m : σ) (actions : List Action),
    ∃ bound r, Linked.performFor T h now bound s m actions = some r

/-- An application whose memory bounds how much it still asks for when actions fail. -/
def Handler.Spends {σ : Type} (h : Handler σ) (budget : σ → Nat) : Prop :=
  ∀ (m : σ) (a : Action) (f : Failure),
    (h.react m (.actionFailed a f)).1.length + budget (h.react m (.actionFailed a f)).2 ≤ budget m

/-- An application that asks for nothing when an action fails. -/
def Handler.Quiet {σ : Type} (h : Handler σ) : Prop :=
  ∀ (m : σ) (a : Action) (f : Failure), (h.react m (.actionFailed a f)).1 = []

namespace Linked

variable {β σ : Type} {T : Transport β} {h : Handler σ} {now : Millis} {bound bound' : Nat}
  {s : Linked β} {m : σ} {r : Outcome β σ}

/-! ### Larger bounds -/

theorem performFor_le (hle : bound ≤ bound') {actions : List Action}
    (hr : performFor T h now bound s m actions = some r) :
    performFor T h now bound' s m actions = some r := by
  induction bound generalizing s m actions bound' with
  | zero =>
    cases actions with
    | nil => cases bound' <;> exact hr
    | cons a rest => cases hr
  | succ bound ih =>
    obtain ⟨bound', rfl⟩ := Nat.exists_eq_add_of_lt hle
    have hle' : bound ≤ bound + bound' := Nat.le_add_right ..
    cases actions with
    | nil => exact hr
    | cons a rest =>
      rw [performFor] at hr ⊢
      rcases he : s.execute T now a with ⟨f | ⟨⟩, s₁⟩ <;> simp only [he] at hr ⊢
      · by_cases hf : f.isFatal
        · simp only [hf, if_true] at hr ⊢
          exact hr
        · simp only [hf, Bool.false_eq_true, if_false] at hr ⊢
          exact ih hle' hr
      · exact ih hle' hr

theorem notify_le (hle : bound ≤ bound') {n : Notice} (hr : notify T h now bound s m n = some r) :
    notify T h now bound' s m n = some r :=
  performFor_le hle hr

/-- An event is handled when its news is told; its own failure counts when the actions end well. -/
theorem handle_eq_some_iff {ev : Event} : handle T h now bound s m ev = some r ↔
    ∃ r', notify T h now bound { s with engine := (s.engine.observe now ev).2.1 } m
        (s.engine.observe now ev).1 = some r' ∧
      (r'.1.bind fun _ => (s.engine.observe now ev).2.2, r'.2) = r :=
  Option.map_eq_some_iff

theorem handle_le (hle : bound ≤ bound') {ev : Event} (hr : handle T h now bound s m ev = some r) :
    handle T h now bound' s m ev = some r := by
  obtain ⟨r', hn, rfl⟩ := handle_eq_some_iff.1 hr
  exact handle_eq_some_iff.2 ⟨r', notify_le hle hn, rfl⟩

theorem reportTimeouts_le (hle : bound ≤ bound') {ds : List Dialogue}
    (hr : reportTimeouts T h now bound s m ds = some r) : reportTimeouts T h now bound' s m ds = some r := by
  induction ds generalizing s m with
  | nil => exact hr
  | cons d rest ih =>
    obtain ⟨⟨v, s₁, m₁⟩, hn, hv⟩ := Option.bind_eq_some_iff.1 hr
    refine Option.bind_eq_some_iff.2 ⟨_, notify_le hle hn, ?_⟩
    cases v with
    | ok => exact ih hv
    | error f => exact hv

theorem sweepAndReport_le (hle : bound ≤ bound') (hr : sweepAndReport T h now bound s m = some r) :
    sweepAndReport T h now bound' s m = some r :=
  reportTimeouts_le hle hr

theorem run_le (hle : bound ≤ bound') {signals : List (Millis × Signal)}
    (hr : run T h bound s m signals = some r) : run T h bound' s m signals = some r := by
  induction signals generalizing s m with
  | nil => exact hr
  | cons signal rest ih =>
    obtain ⟨now, sig⟩ := signal
    cases sig with
    | shutdown => exact hr
    | tick =>
      obtain ⟨⟨v, s₁, m₁⟩, hs, hv⟩ := Option.bind_eq_some_iff.1 hr
      refine Option.bind_eq_some_iff.2 ⟨_, sweepAndReport_le hle hs, ?_⟩
      cases v with
      | ok => exact ih hv
      | error f => exact hv
    | event ev =>
      obtain ⟨⟨v, s₁, m₁⟩, hh, hv⟩ := Option.bind_eq_some_iff.1 hr
      refine Option.bind_eq_some_iff.2 ⟨_, handle_le hle hh, ?_⟩
      cases v with
      | ok => exact ih hv
      | error f =>
        by_cases hf : f.isFatal
        · simp only [hf, if_true] at hv ⊢
          exact hv
        · simp only [hf, Bool.false_eq_true, if_false] at hv ⊢
          exact ih hv

end Linked

/-! ### Applications that come to an end -/

namespace Handler

open Linked

variable {β σ : Type} {T : Transport β} {h : Handler σ}

/-- An application performs no more than it is given and may still ask for. -/
theorem Spends.performFor {budget : σ → Nat} (hspends : h.Spends budget) (T : Transport β) (now : Millis)
    (s : Linked β) (m : σ) {actions : List Action} {bound : Nat} (hb : actions.length + budget m ≤ bound) :
    ∃ r, performFor T h now bound s m actions = some r := by
  induction bound generalizing s m actions with
  | zero =>
    cases actions with
    | nil => exact ⟨_, rfl⟩
    | cons a rest => simp at hb
  | succ bound ih =>
    cases actions with
    | nil => exact ⟨_, rfl⟩
    | cons a rest =>
      rw [List.length_cons] at hb
      rw [Linked.performFor]
      rcases s.execute T now a with ⟨f | ⟨⟩, s₁⟩
      · by_cases hf : f.isFatal
        · simp only [hf, if_true]
          exact ⟨_, rfl⟩
        · simp only [hf, Bool.false_eq_true, if_false]
          have hspent := hspends m a f
          have hleft : (rest ++ (h.react m (.actionFailed a f)).1).length +
              budget (h.react m (.actionFailed a f)).2 ≤ bound := by
            rw [List.length_append]
            omega
          exact ih _ _ hleft
      · exact ih _ _ (by omega)

theorem Spends.settles {budget : σ → Nat} (hspends : h.Spends budget) (T : Transport β) : h.Settles T :=
  fun now s m _ => ⟨_, hspends.performFor T now s m (Nat.le_refl _)⟩

theorem Quiet.spends (hq : h.Quiet) : h.Spends fun _ => 0 := fun m a f => by
  rw [hq m a f]
  exact Nat.le_refl 0

theorem Quiet.settles (hq : h.Quiet) (T : Transport β) : h.Settles T := hq.spends.settles T

variable (hset : h.Settles T) (now : Millis) (s : Linked β) (m : σ)
include hset

theorem Settles.handle (ev : Event) : ∃ bound r, handle T h now bound s m ev = some r := by
  obtain ⟨bound, r, hr⟩ := hset now { s with engine := (s.engine.observe now ev).2.1 }
    (h.react m (s.engine.observe now ev).1).2 (h.react m (s.engine.observe now ev).1).1
  exact ⟨bound, _, handle_eq_some_iff.2 ⟨r, hr, rfl⟩⟩

theorem Settles.reportTimeouts (ds : List Dialogue) :
    ∃ bound r, reportTimeouts T h now bound s m ds = some r := by
  induction ds generalizing s m with
  | nil => exact ⟨0, _, rfl⟩
  | cons d rest ih =>
    obtain ⟨b, ⟨v, s₁, m₁⟩, hn⟩ := hset now s (h.react m (.timeout d)).2 (h.react m (.timeout d)).1
    cases v with
    | error f => exact ⟨b, _, Option.bind_eq_some_iff.2 ⟨_, hn, rfl⟩⟩
    | ok =>
      obtain ⟨b', r, hr⟩ := ih s₁ m₁
      exact ⟨max b b', r, Option.bind_eq_some_iff.2 ⟨_, notify_le (Nat.le_max_left ..) hn,
        reportTimeouts_le (Nat.le_max_right ..) hr⟩⟩

theorem Settles.sweepAndReport : ∃ bound r, sweepAndReport T h now bound s m = some r :=
  hset.reportTimeouts now { s with engine := (s.engine.sweep now).2 } m (s.engine.sweep now).1.timedOut

omit now in
theorem Settles.run (signals : List (Millis × Signal)) : ∃ bound r, run T h bound s m signals = some r := by
  induction signals generalizing s m with
  | nil => exact ⟨0, _, rfl⟩
  | cons signal rest ih =>
    obtain ⟨now, sig⟩ := signal
    cases sig with
    | shutdown => exact ⟨0, _, rfl⟩
    | tick =>
      obtain ⟨b, ⟨v, s₁, m₁⟩, hs⟩ := hset.sweepAndReport now s m
      cases v with
      | error f => exact ⟨b, _, Option.bind_eq_some_iff.2 ⟨_, hs, rfl⟩⟩
      | ok =>
        obtain ⟨b', r, hr⟩ := ih s₁ m₁
        exact ⟨max b b', r, Option.bind_eq_some_iff.2 ⟨_, sweepAndReport_le (Nat.le_max_left ..) hs,
          run_le (Nat.le_max_right ..) hr⟩⟩
    | event ev =>
      obtain ⟨b, ⟨v, s₁, m₁⟩, hh⟩ := hset.handle now s m ev
      obtain ⟨b', r, hr⟩ := ih s₁ m₁
      have hh' := handle_le (Nat.le_max_left b b') hh
      have hr' := run_le (Nat.le_max_right b b') hr
      cases v with
      | ok => exact ⟨max b b', r, Option.bind_eq_some_iff.2 ⟨_, hh', hr'⟩⟩
      | error f =>
        by_cases hf : f.isFatal
        · exact ⟨max b b', _, Option.bind_eq_some_iff.2 ⟨_, hh', if_pos hf⟩⟩
        · exact ⟨max b b', r, Option.bind_eq_some_iff.2 ⟨_, hh', (if_neg hf).trans hr'⟩⟩

end Handler

end Negotiation
