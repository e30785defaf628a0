import Negotiation.Proofs.Agent.Lasting

/-!
Engines that come about. An engine is made, and then its owner calls it, it commits events, it is swept
and it makes requests, in any order and at any times; the transport may answer each of these as it
likes, and may be another one every time. Whatever an application asks for is made of these, so the
engine behind an event, behind the report of a sweep and behind the run loop comes about as well. Main
statement: what a new engine has and every deed, observation, sweep and request keeps is had by all of
them.
-/

namespace Negotiation

/-- Engines that come about: a new one, and what is left of one by an action, a greeting, an event, a
sweep or a request. -/
inductive Engine.Reachable : Engine → Prop
  | new {home : Address} {limits : Limits} {start : UInt32} {e : Engine}
      (he : Engine.new home limits start = .ok e) : e.Reachable
  | act {β : Type} (T : Transport β) (now : Millis) (a : Action) {s : Linked β}
      (hs : s.engine.Reachable) : (s.execute T now a).2.engine.Reachable
  | greet {β : Type} (T : Transport β) (now : Millis) (peer : Address) (content : Bytes) {s : Linked β}
      (hs : s.engine.Reachable) :
      (s.openDialogue T now peer (.message content)).2.engine.Reachable
  | observe (now : Millis) (event : Event) {e : Engine} (h : e.Reachable) :
      (e.observe now event).2.1.Reachable
  | sweep (now : Millis) {e : Engine} (h : e.Reachable) : (e.sweep now).2.Reachable
  | request {β : Type} (T : Transport β) (make : RequestId → Request) {s : Linked β}
      (hs : s.engine.Reachable) : (s.request T make).2.engine.Reachable

namespace Engine.Reachable

/-! ### What an application asks for -/

section Applications

variable {β σ : Type} {T : Transport β} {h : Handler σ} {now : Millis} {bound : Nat} {s s' : Linked β}
  {m m' : σ} {r : Linked.Outcome β σ}

theorem perform (actions : List Action) (hs : s.engine.Reachable) :
    (s.perform T now actions).2.engine.Reachable := by
  induction actions generalizing s with
  | nil => exact hs
  | cons a rest ih =>
    have ha := hs.act T now a
    rw [Linked.perform]
    rcases he : s.execute T now a with ⟨f | ⟨⟩, s'⟩ <;> rw [he] at ha
    · simp only
      split
      · exact ha
      · exact ih ha
    · exact ih ha

theorem performFor {actions : List Action} (hs : s.engine.Reachable)
    (hr : Linked.performFor T h now bound s m actions = some r) : r.2.1.engine.Reachable := by
  have hdeed : ∀ {s : Linked β} {d : Deed}, (∃ a : Action, d = a.deed) → s.engine.Reachable →
      (s.carryOut T now d).2.engine.Reachable := by
    rintro s _ ⟨a, rfl⟩ hs
    exact Linked.execute_eq T now s a ▸ hs.act T now a
  exact (Linked.executed_keeps (I := fun s => s.engine.Reachable) hdeed hs fun p _ => ⟨p.2, rfl⟩).2 r hr

theorem call {c : Linked.Call} (hs : s.engine.Reachable)
    (hc : Linked.call T h bound now s m c = some (s', m')) : s'.engine.Reachable := by
  cases c with
  | act a =>
    cases hc
    exact hs.act T now a
  | greet peer content =>
    cases hc
    exact hs.greet T now peer content
  | sweep =>
    cases hc
    exact hs.sweep now
  | take event =>
    obtain ⟨r, hp, rfl⟩ := Linked.performFor_of_call_take hc
    exact performFor (s := { s with engine := (s.engine.observe now event).2.1 })
      (hs.observe now event) hp

theorem handle {event : Event} (hs : s.engine.Reachable)
    (hr : s.handle T h now bound m event = some r) : r.2.1.engine.Reachable := by
  have hc : Linked.call T h bound now s m (.take event) = some (r.2.1, r.2.2) := by
    rw [Linked.call, hr]
    rfl
  exact hs.call hc

theorem reportTimeouts {ds : List Dialogue} (hs : s.engine.Reachable)
    (hr : Linked.reportTimeouts T h now bound s m ds = some r) : r.2.1.engine.Reachable := by
  induction ds generalizing s m with
  | nil =>
    cases hr
    exact hs
  | cons d rest ih =>
    obtain ⟨⟨verdict, s₁, m₁⟩, hn, hr⟩ := Option.bind_eq_some_iff.1 hr
    have hs₁ : s₁.engine.Reachable := performFor hs hn
    cases verdict with
    | ok => exact ih hs₁ hr
    | error f =>
      cases hr
      exact hs₁

theorem sweepAndReport (hs : s.engine.Reachable) (hr : s.sweepAndReport T h now bound m = some r) :
    r.2.1.engine.Reachable :=
  reportTimeouts (s := { s with engine := (s.engine.sweep now).2 }) (hs.sweep now) hr

/-- The run loop ends with an engine that comes about. -/
theorem run {signals : List (Millis × Linked.Signal)} (hs : s.engine.Reachable)
    (hr : s.run T h bound m signals = some r) : r.2.1.engine.Reachable := by
  induction signals generalizing s m with
  | nil =>
    cases hr
    exact hs
  | cons signal rest ih =>
    obtain ⟨now, signal⟩ := signal
    cases signal with
    | shutdown =>
      cases hr
      exact hs
    | tick =>
      obtain ⟨⟨verdict, s₁, m₁⟩, hn, hr⟩ := Option.bind_eq_some_iff.1 hr
      have hs₁ : s₁.engine.Reachable := hs.sweepAndReport hn
      cases verdict with
      | ok => exact ih hs₁ hr
      | error f =>
        cases hr
        exact hs₁
    | event ev =>
      obtain ⟨⟨verdict, s₁, m₁⟩, hn, hr⟩ := Option.bind_eq_some_iff.1 hr
      have hs₁ : s₁.engine.Reachable := hs.handle hn
      cases verdict with
      | ok => exact ih hs₁ hr
      | error f =>
        simp only at hr
        split at hr
        · cases hr
          exact hs₁
        · exact ih hs₁ hr

/-- What calls leave of an engine that comes about, comes about. -/
theorem calls {cs : List (Millis × Linked.Call)} (hs : s.engine.Reachable)
    (hc : Linked.calls T h bound s m cs = some (s', m')) : s'.engine.Reachable := by
  induction cs generalizing s m with
  | nil =>
    cases hc
    exact hs
  | cons c rest ih =>
    obtain ⟨now, c⟩ := c
    rw [Linked.calls] at hc
    split at hc
    · next s₁ m₁ hone => exact ih (hs.call hone) hc
    · cases hc

end Applications

/-! ### What they have in common -/

variable {e : Engine}

/-- What a new engine has and every deed, observation, sweep and request keeps. -/
theorem keeps {I : Engine → Prop}
    (hnew : ∀ {home limits start e}, Engine.new home limits start = .ok e → I e)
    (hdeed : ∀ {β : Type} {T : Transport β} {now} {s : Linked β} {d}, Deed.Proper (fun _ => True) d →
      I s.engine → I (s.carryOut T now d).2.engine)
    (hobserve : ∀ {e now event}, I e → I (e.observe now event).2.1)
    (hsweep : ∀ {e now}, I e → I (e.sweep now).2)
    (hrequest : ∀ {e n}, I e → I { e with nextRequest := n }) (h : e.Reachable) : I e := by
  induction h with
  | new he => exact hnew he
  | @act β T now a s _ ih => exact Linked.execute_eq T now s a ▸ hdeed a.proper_deed ih
  | greet T now peer content _ ih =>
    exact hdeed (d := .opening peer (.message content)) trivial ih
  | observe now event _ ih => exact hobserve ih
  | sweep now _ ih => exact hsweep ih
  | request T make _ ih => exact hrequest ih

/-- A property that lasts is had by all dialogues of an engine that comes about. -/
theorem holds {P : Dialogue → Prop} (hP : ∀ home, Lasting home (fun _ => True) P) (h : e.Reachable) :
    e.Holds P :=
  h.keeps (fun he => (holds_new he).2) (fun hd hh => Linked.holds_carryOut (hP _) hd hh)
    (fun hh => hh.observe (hP _) fun _ _ => trivial) (fun {e _} hh => hh.sweep (hP e.home))
    (fun hh => hh)

/-- A dialogue is held under its own number. -/
theorem id_eq (h : e.Reachable) {id : DialogueId} {d : Dialogue} (hd : e.table.get? id = some d) :
    d.id = id :=
  (h.holds lasting_true id d hd).1

end Engine.Reachable

end Negotiation
