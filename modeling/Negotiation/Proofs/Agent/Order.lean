import Negotiation.Proofs.Agent.Bounds
import Negotiation.Proofs.Agent.Record
import Negotiation.Proofs.Agent.Runs

/-!
The order in which actions are performed. They stand in line: first those that were given, and behind them
what the application asks for as it is told of failures, in the order of these. Each failure is told once,
and a fatal one ends everything without being told. For an application that asks for nothing when an
action fails, performing with it and without it come to the same. Main statement: `performed_in_line`.
-/

namespace Negotiation

namespace Handler

variable {σ : Type}

/-- What an application asks for when it is told some news, one after the other. -/
def answers (h : Handler σ) : σ → List Notice → List Action
  | _, [] => []
  | m, n :: rest => (h.react m n).1 ++ h.answers (h.react m n).2 rest

end Handler

namespace Linked

variable {β σ : Type}

/-- The news of an action that is executed: none unless it fails, and none when it fails fatally. -/
def setback? (T : Transport β) (now : Millis) (p : Linked β × Action) : Option Notice :=
  match (p.1.execute T now p.2).1 with
  | .ok () => none
  | .error f => if f.isFatal then none else some (.actionFailed p.2 f)

/-- Executed actions that start in one state and end in another, each in the state that the one before it
has left. -/
def Chained (T : Transport β) (now : Millis) : Linked β → List (Linked β × Action) → Linked β → Prop
  | s, [], s' => s = s'
  | s, p :: rest, s' => p.1 = s ∧ Chained T now (p.1.execute T now p.2).2 rest s'

/-- What performing actions for an application does, action by action. -/
inductive Performs (T : Transport β) (h : Handler σ) (now : Millis) :
    Linked β → σ → List Action → List (Linked β × Action) → Outcome β σ → Prop
  | done (s : Linked β) (m : σ) : Performs T h now s m [] [] (.ok (), s, m)
  | passed {s s₁ : Linked β} {m : σ} {a : Action} {rest : List Action} {ps : List (Linked β × Action)}
      {r : Outcome β σ} (ha : s.execute T now a = (.ok (), s₁)) (hrest : Performs T h now s₁ m rest ps r) :
      Performs T h now s m (a :: rest) ((s, a) :: ps) r
  | failed {s s₁ : Linked β} {m : σ} {a : Action} {f : Failure} {rest : List Action}
      {ps : List (Linked β × Action)} {r : Outcome β σ} (ha : s.execute T now a = (.error f, s₁))
      (hf : ¬ f.isFatal)
      (hrest : Performs T h now s₁ (h.react m (.actionFailed a f)).2
        (rest ++ (h.react m (.actionFailed a f)).1) ps r) :
      Performs T h now s m (a :: rest) ((s, a) :: ps) r
  | fatal {s s₁ : Linked β} {m : σ} {a : Action} {f : Failure} {rest : List Action}
      (ha : s.execute T now a = (.error f, s₁)) (hf : f.isFatal) :
      Performs T h now s m (a :: rest) [(s, a)] (.error f, s₁, m)

variable {T : Transport β} {h : Handler σ} {now : Millis} {bound : Nat} {s s' : Linked β} {m : σ}
  {actions : List Action} {ps : List (Linked β × Action)} {r : Outcome β σ} {a : Action} {f : Failure}

theorem performs_of_performFor (hr : performFor T h now bound s m actions = some r) :
    Performs T h now s m actions (executed T h now bound s m actions) r := by
  induction bound generalizing s m actions with
  | zero =>
    cases actions with
    | nil =>
      cases hr
      exact .done s m
    | cons a rest => cases hr
  | succ bound ih =>
    cases actions with
    | nil =>
      cases hr
      exact .done s m
    | cons a rest =>
      rw [performFor] at hr
      rw [executed]
      rcases ha : s.execute T now a with ⟨f | ⟨⟩, s₁⟩ <;> simp only [ha] at hr ⊢
      · by_cases hf : f.isFatal
        · simp only [hf, if_true] at hr ⊢
          cases hr
          exact .fatal ha hf
        · simp only [hf, Bool.false_eq_true, if_false] at hr ⊢
          exact .failed ha hf (ih hr)
      · exact .passed ha (ih hr)

/-! ### How much is executed -/

theorem length_executed_le (T : Transport β) (h : Handler σ) (now : Millis) (bound : Nat) (s : Linked β)
    (m : σ) (actions : List Action) : (executed T h now bound s m actions).length ≤ bound := by
  induction bound generalizing s m actions with
  | zero => cases actions <;> exact Nat.le_refl 0
  | succ bound ih =>
    cases actions with
    | nil => exact Nat.zero_le _
    | cons a rest =>
      rw [executed, List.length_cons]
      refine Nat.succ_le_succ ?_
      rcases s.execute T now a with ⟨f | ⟨⟩, s₁⟩
      · by_cases hf : f.isFatal
        · simp [hf]
        · simp only [hf, Bool.false_eq_true, if_false]
          exact ih ..
      · exact ih ..

/-- A larger bound makes no difference to what is executed. -/
theorem Performs.executed_eq (hp : Performs T h now s m actions ps r) (hb : ps.length ≤ bound) :
    executed T h now bound s m actions = ps := by
  induction hp generalizing bound with
  | done s m => cases bound <;> rfl
  | passed ha _ ih =>
    cases bound with
    | zero => cases hb
    | succ bound =>
      rw [executed, ha]
      exact congrArg _ (ih (Nat.le_of_succ_le_succ hb))
  | failed ha hf _ ih =>
    cases bound with
    | zero => cases hb
    | succ bound =>
      simp only [executed, ha, hf, Bool.false_eq_true, if_false]
      exact congrArg _ (ih (Nat.le_of_succ_le_succ hb))
  | fatal ha hf =>
    cases bound with
    | zero => cases hb
    | succ bound => simp only [executed, ha, hf, if_true]

/-- What comes to an end within a bound never executes more, whatever it is allowed. -/
theorem length_executed_le_of_performFor (hr : performFor T h now bound s m actions = some r)
    (bound' : Nat) : (executed T h now bound' s m actions).length ≤ bound := by
  have hle := length_executed_le T h now bound s m actions
  by_cases hb : (executed T h now bound s m actions).length ≤ bound'
  · rwa [(performs_of_performFor hr).executed_eq hb]
  · have hle' := length_executed_le T h now bound' s m actions
    omega

/-! ### What is told -/

/-- While actions are performed, the application is told of each that fails, and of nothing else. -/
theorem news_eq_setbacks (T : Transport β) (h : Handler σ) (now : Millis) (u : List Dialogue) (bound : Nat)
    (s : Linked β) (m : σ) (actions : List Action) :
    (consultsFor T h now u bound s m actions).map (·.news) =
      (executed T h now bound s m actions).filterMap (setback? T now) := by
  induction bound generalizing s m actions with
  | zero => cases actions <;> rfl
  | succ bound ih =>
    cases actions with
    | nil => rfl
    | cons a rest =>
      rw [consultsFor, recordFor, executed, List.filterMap_cons, setback?]
      rcases ha : s.execute T now a with ⟨f | ⟨⟩, s₁⟩
      · by_cases hf : f.isFatal
        · simp only [hf, if_true]
          rfl
        · simp only [hf, Bool.false_eq_true, if_false]
          exact congrArg (.actionFailed a f :: ·) (ih ..)
      · exact ih ..

theorem setback?_of_ok (ha : s.execute T now a = (.ok (), s')) : setback? T now (s, a) = none := by
  rw [setback?, ha]

theorem setback?_of_error (ha : s.execute T now a = (.error f, s')) (hf : ¬ f.isFatal) :
    setback? T now (s, a) = some (.actionFailed a f) := by
  simp only [setback?, ha, hf, Bool.false_eq_true, if_false]

theorem setback?_of_fatal (ha : s.execute T now a = (.error f, s')) (hf : f.isFatal) :
    setback? T now (s, a) = none := by
  simp only [setback?, ha, hf, if_true]

namespace Performs

theorem chained (hp : Performs T h now s m actions ps r) : Chained T now s ps r.2.1 := by
  induction hp with
  | done s m => rfl
  | passed ha _ ih => exact ⟨rfl, by rwa [ha]⟩
  | failed ha _ _ ih => exact ⟨rfl, by rwa [ha]⟩
  | fatal ha _ => exact ⟨rfl, by rw [ha]; rfl⟩

theorem remembered (hp : Performs T h now s m actions ps r) :
    r.2.2 = h.remembers m (ps.filterMap (setback? T now)) := by
  induction hp with
  | done s m => rfl
  | passed ha _ ih => rwa [List.filterMap_cons, setback?_of_ok ha]
  | failed ha hf _ ih => rwa [List.filterMap_cons, setback?_of_error ha hf]
  | fatal ha hf =>
    rw [List.filterMap_cons, setback?_of_fatal ha hf]
    rfl

theorem inOrder (hp : Performs T h now s m actions ps r) :
    ps.map (·.2) <+: actions ++ h.answers m (ps.filterMap (setback? T now)) := by
  induction hp with
  | done s m => exact List.nil_prefix
  | passed ha _ ih =>
    rw [List.filterMap_cons, setback?_of_ok ha]
    exact List.cons_prefix_cons.2 ⟨rfl, ih⟩
  | failed ha hf _ ih =>
    rw [List.filterMap_cons, setback?_of_error ha hf]
    rw [List.append_assoc] at ih
    exact List.cons_prefix_cons.2 ⟨rfl, ih⟩
  | fatal ha hf => exact List.cons_prefix_cons.2 ⟨rfl, List.nil_prefix⟩

theorem complete (hp : Performs T h now s m actions ps r) (hok : r.1 = .ok ()) :
    ps.map (·.2) = actions ++ h.answers m (ps.filterMap (setback? T now)) := by
  induction hp with
  | done s m => rfl
  | passed ha _ ih =>
    rw [List.filterMap_cons, setback?_of_ok ha]
    exact congrArg _ (ih hok)
  | failed ha hf _ ih =>
    rw [List.filterMap_cons, setback?_of_error ha hf]
    rw [List.append_assoc] at ih
    exact congrArg _ (ih hok)
  | fatal ha hf => cases hok

/-- What is left of the line when some actions have been executed is performed as a line of its own. -/
theorem split {before after : List (Linked β × Action)} {p : Linked β × Action}
    (hp : Performs T h now s m actions (before ++ p :: after) r) : ∃ s₁ m₁ line,
      Performs T h now s₁ m₁ line (p :: after) r ∧
      before.map (·.2) ++ line = actions ++ h.answers m (before.filterMap (setback? T now)) := by
  induction before generalizing s m actions with
  | nil => exact ⟨s, m, actions, hp, (List.append_nil _).symm⟩
  | cons q before ih =>
    generalize hps : q :: before ++ p :: after = ps at hp
    cases hp with
    | done => cases hps
    | passed ha hrest =>
      obtain ⟨rfl, rfl⟩ := List.cons.inj hps
      obtain ⟨s₁, m₁, line, hline, heq⟩ := ih hrest
      rw [List.filterMap_cons, setback?_of_ok ha]
      exact ⟨s₁, m₁, line, hline, congrArg _ heq⟩
    | failed ha hf hrest =>
      obtain ⟨rfl, rfl⟩ := List.cons.inj hps
      obtain ⟨s₁, m₁, line, hline, heq⟩ := ih hrest
      rw [List.append_assoc] at heq
      rw [List.filterMap_cons, setback?_of_error ha hf]
      exact ⟨s₁, m₁, line, hline, congrArg _ heq⟩
    | fatal => simp at hps

/-- An action is executed when it was given, or was asked for because of failures before it. -/
theorem due {before after : List (Linked β × Action)} {p : Linked β × Action}
    (hp : Performs T h now s m actions (before ++ p :: after) r) :
    before.map (·.2) ++ [p.2] <+: actions ++ h.answers m (before.filterMap (setback? T now)) := by
  obtain ⟨s₁, m₁, line, hline, heq⟩ := hp.split
  obtain ⟨rest, rfl⟩ : ∃ rest, line = p.2 :: rest := by cases hline <;> exact ⟨_, rfl⟩
  rw [← heq]
  exact ⟨rest, by rw [List.append_assoc, List.singleton_append]⟩

theorem last_of_fatal {before after : List (Linked β × Action)} {p : Linked β × Action}
    (hp : Performs T h now s m actions (before ++ p :: after) r)
    (hfails : (p.1.execute T now p.2).1 = .error f) (hf : f.isFatal) : after = [] ∧ r.1 = .error f := by
  obtain ⟨s₁, m₁, line, hline, -⟩ := hp.split
  cases hline with
  | passed ha _ =>
    rw [ha] at hfails
    cases hfails
  | failed ha hf' _ =>
    rw [ha] at hfails
    cases hfails
    exact absurd hf hf'
  | fatal ha _ =>
    rw [ha] at hfails
    exact ⟨rfl, hfails⟩

theorem fatal_of_error (hp : Performs T h now s m actions ps r) (hr : r.1 = .error f) :
    f.isFatal ∧ ∃ before p, ps = before ++ [p] ∧ (p.1.execute T now p.2).1 = .error f := by
  induction hp with
  | done s m => cases hr
  | passed ha _ ih =>
    obtain ⟨hf, before, p, rfl, hp⟩ := ih hr
    exact ⟨hf, _ :: before, p, rfl, hp⟩
  | failed ha _ _ ih =>
    obtain ⟨hf, before, p, rfl, hp⟩ := ih hr
    exact ⟨hf, _ :: before, p, rfl, hp⟩
  | @fatal s s₁ m a g rest ha hf =>
    cases hr
    exact ⟨hf, [], (s, a), rfl, by rw [ha]⟩

end Performs

/-! ### Applications that ask for nothing more -/

/-- Telling a quiet application of the actions that fail makes no difference to what they come to. -/
theorem performFor_of_quiet (hq : h.Quiet) (T : Transport β) (now : Millis) (s : Linked β) (m : σ)
    (actions : List Action) : ∃ m', performFor T h now actions.length s m actions =
      some ((s.perform T now actions).1, (s.perform T now actions).2, m') := by
  induction actions generalizing s m with
  | nil => exact ⟨m, rfl⟩
  | cons a rest ih =>
    rw [List.length_cons, performFor, perform]
    rcases s.execute T now a with ⟨f | ⟨⟩, s₁⟩
    · by_cases hf : f.isFatal
      · simp only [hf, if_true]
        exact ⟨m, rfl⟩
      · simp only [hf, Bool.false_eq_true, if_false, hq m a f, List.append_nil]
        exact ih ..
    · exact ih ..

/-! ### Performing in line -/

/-- How the actions `ps` are executed for an application that is told the news `news`, up to a result. -/
structure InLine (T : Transport β) (h : Handler σ) (now : Millis) (s : Linked β) (m : σ)
    (actions : List Action) (ps : List (Linked β × Action)) (news : List Notice) (r : Outcome β σ) :
    Prop where
  /-- The executed actions lead from the one state to the other. -/
  chained : Chained T now s ps r.2.1
  /-- The application is told once of each that fails, in their order, and not of a fatal failure. -/
  told : news = ps.filterMap (setback? T now)
  /-- What it has been told is all that has changed its memory. -/
  remembered : r.2.2 = h.remembers m news
  /-- The actions that were given come first, and then what it asks for, in the order of the failures. -/
  inOrder : ps.map (·.2) <+: actions ++ h.answers m news
  /-- None is executed before the failure that it is asked for. -/
  due : ∀ before p after, ps = before ++ p :: after →
    before.map (·.2) ++ [p.2] <+: actions ++ h.answers m (before.filterMap (setback? T now))
  /-- If all ends well, the line has been performed to its end. -/
  complete : r.1 = .ok () → ps.map (·.2) = actions ++ h.answers m news
  /-- Nothing is executed behind a fatal failure, and it is the result. -/
  last : ∀ before p after f, ps = before ++ p :: after → (p.1.execute T now p.2).1 = .error f → f.isFatal →
    after = [] ∧ r.1 = .error f
  /-- Only a fatal failure is a result. -/
  fatal : ∀ f, r.1 = .error f →
    f.isFatal ∧ ∃ before p, ps = before ++ [p] ∧ (p.1.execute T now p.2).1 = .error f

theorem Performs.inLine (hp : Performs T h now s m actions ps r) :
    InLine T h now s m actions ps (ps.filterMap (setback? T now)) r where
  chained := hp.chained
  told := rfl
  remembered := hp.remembered
  inOrder := hp.inOrder
  due _ _ _ hps := (hps ▸ hp).due
  complete := hp.complete
  last _ _ _ _ hps := (hps ▸ hp).last_of_fatal
  fatal _ := hp.fatal_of_error

/-- IN LINE: for an application that asks for nothing when an action fails, performing actions with it and
    without it ends with the same result, in the same engine, and with the same messages handed to the
    transport in the same order. For every application, whenever performing ends, the actions that were
    executed and the news that it was told go along the line of the actions that were given and those
    asked for because of failures (`InLine`). -/
theorem performed_in_line (T : Transport β) (h : Handler σ) (now : Millis) (m : σ) (actions : List Action) :
    (h.Quiet → ∀ s : Linked (List Outgoing × β), ∃ r : Outcome (List Outgoing × β) σ,
      (∀ more, performFor T.watched h now (actions.length + more) s m actions = some r) ∧
      (r.1, r.2.1) = s.perform T.watched now actions) ∧
    ∀ (s : Linked β) (bound : Nat) (r : Outcome β σ), performFor T h now bound s m actions = some r →
      ∀ u, InLine T h now s m actions (executed T h now bound s m actions)
        ((consultsFor T h now u bound s m actions).map (·.news)) r := by
  refine ⟨fun hq s => ?_, fun s bound r hr u => ?_⟩
  · obtain ⟨m', hr⟩ := performFor_of_quiet hq T.watched now s m actions
    exact ⟨_, fun more => performFor_le (Nat.le_add_right ..) hr, rfl⟩
  · rw [news_eq_setbacks]
    exact (performs_of_performFor hr).inLine

/-- A call that the transport refuses and an acceptance that answers nothing are followed by what the
application asks for instead, behind the call that was given with them; an application that asks for
nothing more is left with the one call that was taken. -/
theorem tried_again_behind :
    let bob : Address := .ofKey "bob"
    let carol : Address := .ofKey "carol"
    let insistent : Handler Nat := ⟨fun n news =>
      match news with
      | .actionFailed (.cfp peer payload) _ => ([.cfp peer payload], n + 1)
      | .actionFailed (.accept id) _ => ([.decline id], n + 1)
      | _ => ([], n + 1)⟩
    let content : Handler Nat := ⟨fun n _ => ([], n + 1)⟩
    let e : Engine := { home := .ofKey "alice", table := .new {} 1 }
    let link : Recording := { fault := some ⟨.refused "queue full", 0, some 1⟩ }
    let actions : List Action := [.cfp bob .nothing, .accept 9, .cfp carol .nothing]
    (∃ r, performFor .recorder insistent 0 5 ⟨e, link⟩ 0 actions = some r ∧
      InLine .recorder insistent 0 ⟨e, link⟩ 0 actions (executed .recorder insistent 0 5 ⟨e, link⟩ 0 actions)
        ((consultsFor .recorder insistent 0 [] 5 ⟨e, link⟩ 0 actions).map (·.news)) r ∧ r.2.2 = 3 ∧
      (executed .recorder insistent 0 5 ⟨e, link⟩ 0 actions).map (·.2) =
        actions ++ [.cfp bob .nothing, .decline 9]) ∧
    content.Quiet ∧ ∃ r : Outcome (List Outgoing × Recording) Nat,
      performFor (Transport.recorder.watched) content 0 3 ⟨e, [], link⟩ 0 actions = some r ∧
      (r.1, r.2.1) = (⟨e, [], link⟩ : Linked _).perform Transport.recorder.watched 0 actions ∧
      r.2.1.link.1.map (·.dialogue) = [1, 2] := by
  intro bob carol insistent content e link actions
  obtain ⟨-, hline⟩ := performed_in_line .recorder insistent 0 0 actions
  obtain ⟨hquiet, -⟩ := performed_in_line .recorder content 0 0 actions
  have hq : content.Quiet := fun _ _ _ => rfl
  constructor
  · have hends : (performFor .recorder insistent 0 5 ⟨e, link⟩ 0 actions).map (·.2.2) = some 3 := by
      decide +kernel
    obtain ⟨r, hr, hm⟩ := Option.map_eq_some_iff.1 hends
    exact ⟨r, hr, hline _ 5 r hr [], hm, by decide +kernel⟩
  · obtain ⟨r, hr, hsame⟩ := hquiet hq ⟨e, [], link⟩
    have hseen : ((⟨e, [], link⟩ : Linked _).perform Transport.recorder.watched 0 actions).2.link.1.map
        (·.dialogue) = [1, 2] := by decide +kernel
    exact ⟨hq, r, hr 0, hsame, by rw [← hseen, ← hsame]⟩

end Linked

end Negotiation
