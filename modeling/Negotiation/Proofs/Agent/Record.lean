import Negotiation.Agent.Engine

/-!
What happens between an engine and its application, in order: the actions that are performed for the
application, and what it is told, be it of an event, of a dialogue that a sweep has timed out or of an
action that failed. `record` lists this for a run, also for one that goes on after a fatal failure or a
shutdown. Two lists are read off it: the moments at which the application is told something
(`consults`), and what happens without the engine that it happens in (`history`).

A record is made step by step, and `Step` says what a step can do. What every step keeps holds all
along a record (`Trace.keeps`), so behind every moment that is read off it, and a record ends in the
engine and the memory that are returned (`leads_recordOf`).
-/

namespace Negotiation

/-- A moment at which an application is told something: the engine, the memory, the news, and the
dialogues that sweeps have closed and that it was not told of. -/
structure Consult (σ : Type) where
  engine : Engine
  memory : σ
  news : Notice
  unreported : List Dialogue

/-- Something that happens in a run. -/
inductive Happening (β σ : Type) where
  /-- An application with a memory is told something. -/
  | told (memory : σ) (news : Notice)
  /-- An action is performed for it. -/
  | acted (now : Millis) (before : Linked β) (action : Action)

/-- What an application is told, with its memory. -/
def Happening.told? {β σ : Type} : Happening β σ → Option (σ × Notice)
  | .told m n => some (m, n)
  | .acted _ _ _ => none

/-- An entry of a record: what happens, the engine that it happens in, and the dialogues that are
unreported then. -/
structure Entry (β σ : Type) where
  happening : Happening β σ
  engine : Engine
  unreported : List Dialogue

/-- The moment of an entry at which the application is told something. -/
def Entry.consult? {β σ : Type} (e : Entry β σ) : Option (Consult σ) :=
  e.happening.told?.map fun k => ⟨e.engine, k.1, k.2, e.unreported⟩

/-- What an application remembers behind some news. -/
def Handler.remembers {σ : Type} (h : Handler σ) (m : σ) (news : List Notice) : σ :=
  news.foldl (fun m n => (h.react m n).2) m

/-- News of an event, as opposed to news of a sweep or of an action that failed. -/
def Notice.isInbound : Notice → Bool
  | .timeout _ => false
  | .actionFailed _ _ => false
  | _ => true

theorem Engine.isInbound_observe (e : Engine) (now : Millis) (ev : Event) :
    (e.observe now ev).1.isInbound := by
  cases ev with
  | agent m =>
    rw [observe]
    cases e.receive m now with
    | error f => rfl
    | ok r => cases m.body <;> rfl
  | _ => rfl

namespace Linked

variable {β σ : Type}

/-! ### The record of a run -/

section Record

variable (T : Transport β) (h : Handler σ)

/-- What happens while actions are performed. -/
def recordFor (now : Millis) (u : List Dialogue) :
    Nat → Linked β → σ → List Action → List (Entry β σ)
  | _, _, _, [] => []
  | 0, _, _, _ :: _ => []
  | bound + 1, s, m, a :: rest =>
    ⟨.acted now s a, s.engine, u⟩ ::
      match s.execute T now a with
      | (.ok (), s) => recordFor now u bound s m rest
      | (.error f, s) =>
        if f.isFatal then []
        else
          let (more, m') := h.react m (.actionFailed a f)
          ⟨.told m (.actionFailed a f), s.engine, u⟩ :: recordFor now u bound s m' (rest ++ more)

/-- What follows from some news, with the news itself. -/
def recordOn (now : Millis) (bound : Nat) (u : List Dialogue) (s : Linked β) (m : σ) (n : Notice) :
    List (Entry β σ) :=
  let (actions, m') := h.react m n
  ⟨.told m n, s.engine, u⟩ :: recordFor T h now u bound s m' actions

/-- What happens while dialogues that timed out are reported, and those of them that are left
unreported; `u` are the ones that were left before. -/
def recordReporting (now : Millis) (bound : Nat) (u : List Dialogue) :
    Linked β → σ → List Dialogue → List (Entry β σ) × List Dialogue
  | _, _, [] => ([], u)
  | s, m, d :: rest =>
    let told := recordOn T h now bound (rest ++ u) s m (.timeout d)
    match notify T h now bound s m (.timeout d) with
    | some (.ok (), s, m) =>
      let (more, left) := recordReporting now bound u s m rest
      (told ++ more, left)
    | _ => (told, rest ++ u)

/-- What happens at a signal, and the dialogues that are left unreported. -/
def recordOf (now : Millis) (bound : Nat) (u : List Dialogue) (s : Linked β) (m : σ) :
    Signal → List (Entry β σ) × List Dialogue
  | .shutdown => ([], u)
  | .tick =>
    let (report, engine) := s.engine.sweep now
    recordReporting T h now bound u { s with engine } m report.timedOut
  | .event ev =>
    let (news, engine, _) := s.engine.observe now ev
    (recordOn T h now bound u { s with engine } m news, u)

/-- Engine, transport and memory behind a signal; none when the application does not come to an end. -/
def pass (now : Millis) (bound : Nat) (s : Linked β) (m : σ) : Signal → Option (Linked β × σ)
  | .shutdown => some (s, m)
  | .tick => (sweepAndReport T h now bound s m).map (·.2)
  | .event ev => (handle T h now bound s m ev).map (·.2)

/-- What happens in a run. -/
def record (bound : Nat) :
    Linked β → σ → List Dialogue → List (Millis × Signal) → List (Entry β σ)
  | _, _, _, [] => []
  | s, m, u, (now, sig) :: rest =>
    let (l, left) := recordOf T h now bound u s m sig
    l ++
      match pass T h now bound s m sig with
      | some (s, m) => record bound s m left rest
      | none => []

end Record

/-! ### What is read off a record -/

/-- The moments of a record at which the application is told something. -/
def consulted (l : List (Entry β σ)) : List (Consult σ) := l.filterMap (·.consult?)

/-- What the application is told in a record. -/
def newsOf (l : List (Entry β σ)) : List Notice := (consulted l).map (·.news)

section Readings

variable (T : Transport β) (h : Handler σ)

/-- The moments at which an application is told of actions that fail. -/
def consultsFor (now : Millis) (u : List Dialogue) (bound : Nat) (s : Linked β) (m : σ)
    (actions : List Action) : List (Consult σ) :=
  consulted (recordFor T h now u bound s m actions)

/-- The moments at which an application is told something in a run. -/
def consults (bound : Nat) (s : Linked β) (m : σ) (u : List Dialogue)
    (signals : List (Millis × Signal)) : List (Consult σ) :=
  consulted (record T h bound s m u signals)

/-- What happens in a run, without the engine that it happens in. -/
def history (bound : Nat) (s : Linked β) (m : σ) (signals : List (Millis × Signal)) :
    List (Happening β σ) :=
  (record T h bound s m [] signals).map (·.happening)

end Readings

theorem consulted_append (l l' : List (Entry β σ)) : consulted (l ++ l') = consulted l ++ consulted l' :=
  List.filterMap_append

@[simp]
theorem newsOf_append (l l' : List (Entry β σ)) : newsOf (l ++ l') = newsOf l ++ newsOf l' := by
  rw [newsOf, consulted_append, List.map_append]
  rfl

/-- A moment of a record stands in one of its entries. -/
theorem eq_append_of_consulted_eq {l : List (Entry β σ)} {before after : List (Consult σ)}
    {k : Consult σ} (h : consulted l = before ++ k :: after) :
    ∃ l₁ e l₂, l = l₁ ++ e :: l₂ ∧ consulted l₁ = before ∧ e.consult? = some k := by
  obtain ⟨l₁, rest, rfl, hbefore, hrest⟩ := List.filterMap_eq_append_iff.1 h
  obtain ⟨skipped, e, l₂, rfl, hskipped, hk, -⟩ := List.filterMap_eq_cons_iff.1 hrest
  refine ⟨l₁ ++ skipped, e, l₂, (List.append_assoc ..).symm, ?_, hk⟩
  rw [consulted_append, consulted, consulted, hbefore, List.filterMap_eq_nil_iff.2 hskipped]
  exact List.append_nil _

/-! ### The steps of a record -/

/-- How a run stands: engine and transport, what the application remembers, the dialogues that sweeps
have closed and that it was not told of, and the actions that wait. -/
structure Standing (β σ : Type) where
  linked : Linked β
  memory : σ
  unreported : List Dialogue
  waiting : List Action

/-- The entry of telling the application something. -/
def Standing.telling (x : Standing β σ) (n : Notice) : Entry β σ :=
  ⟨.told x.memory n, x.linked.engine, x.unreported⟩

/-- An application that is told something remembers, and its answers wait behind what waits already. -/
def Standing.tell (h : Handler σ) (x : Standing β σ) (n : Notice) : Standing β σ :=
  { x with memory := (h.react x.memory n).2, waiting := x.waiting ++ (h.react x.memory n).1 }

/-- A step of a run, with the signal that it takes and what it enters in the record. An action is
performed, and the application is told of one that fails, but not of a fatal failure, behind which
nothing waits any more. When nothing waits, an event is taken, the table is swept, a shutdown is passed
over, or a dialogue that a sweep has closed is reported. -/
inductive Step (T : Transport β) (h : Handler σ) :
    Standing β σ → List (Millis × Signal) → List (Entry β σ) → Standing β σ → Prop
  | done {now : Millis} {s s' : Linked β} {m : σ} {u : List Dialogue} {a : Action}
      {rest : List Action} (ha : s.execute T now a = (.ok (), s')) :
      Step T h ⟨s, m, u, a :: rest⟩ [] [⟨.acted now s a, s.engine, u⟩] ⟨s', m, u, rest⟩
  | fatal {now : Millis} {s s' : Linked β} {m : σ} {u : List Dialogue} {a : Action} {f : Failure}
      {rest : List Action} (ha : s.execute T now a = (.error f, s')) (hf : f.isFatal) :
      Step T h ⟨s, m, u, a :: rest⟩ [] [⟨.acted now s a, s.engine, u⟩] ⟨s', m, u, []⟩
  | failed {now : Millis} {s s' : Linked β} {m : σ} {u : List Dialogue} {a : Action} {f : Failure}
      {rest : List Action} (ha : s.execute T now a = (.error f, s')) (hf : ¬ f.isFatal) :
      Step T h ⟨s, m, u, a :: rest⟩ []
        [⟨.acted now s a, s.engine, u⟩, Standing.telling ⟨s', m, u, rest⟩ (.actionFailed a f)]
        (Standing.tell h ⟨s', m, u, rest⟩ (.actionFailed a f))
  | event {now : Millis} {s : Linked β} {m : σ} {u : List Dialogue} {ev : Event} {n : Notice}
      {engine : Engine} {verdict : Except Failure Unit}
      (ho : s.engine.observe now ev = (n, engine, verdict)) :
      Step T h ⟨s, m, u, []⟩ [(now, .event ev)] [Standing.telling ⟨{ s with engine }, m, u, []⟩ n]
        (Standing.tell h ⟨{ s with engine }, m, u, []⟩ n)
  | sweep (now : Millis) (s : Linked β) (m : σ) (u : List Dialogue) :
      Step T h ⟨s, m, u, []⟩ [(now, .tick)] []
        ⟨{ s with engine := (s.engine.sweep now).2 }, m, (s.engine.sweep now).1.timedOut ++ u, []⟩
  | shutdown (now : Millis) (s : Linked β) (m : σ) (u : List Dialogue) :
      Step T h ⟨s, m, u, []⟩ [(now, .shutdown)] [] ⟨s, m, u, []⟩
  | report (s : Linked β) (m : σ) (d : Dialogue) (u : List Dialogue) :
      Step T h ⟨s, m, d :: u, []⟩ [] [Standing.telling ⟨s, m, u, []⟩ (.timeout d)]
        (Standing.tell h ⟨s, m, u, []⟩ (.timeout d))

/-- Steps one after the other, with all that they take and enter. -/
inductive Trace (T : Transport β) (h : Handler σ) :
    Standing β σ → List (Millis × Signal) → List (Entry β σ) → Standing β σ → Prop
  | refl (x : Standing β σ) : Trace T h x [] [] x
  | step {x y z : Standing β σ} {g g' : List (Millis × Signal)} {l l' : List (Entry β σ)}
      (hs : Step T h x g l y) (ht : Trace T h y g' l' z) : Trace T h x (g ++ g') (l ++ l') z

variable {T : Transport β} {h : Handler σ} {now : Millis} {bound : Nat} {s : Linked β} {m : σ}
  {u : List Dialogue} {x y z : Standing β σ} {g g' : List (Millis × Signal)} {l l' : List (Entry β σ)}
  {e : Entry β σ} {k : Consult σ}

/-- What a list ends with is the one element or stands behind it. -/
theorem eq_of_concat_eq {α : Type} {l before after : List α} {x y : α}
    (h : l ++ [x] = before ++ y :: after) :
    (l = before ∧ x = y ∧ after = []) ∨ ∃ after', after = after' ++ [x] ∧ l = before ++ y :: after' := by
  rcases List.eq_nil_or_concat after with rfl | ⟨after', z, rfl⟩
  · obtain ⟨rfl, hx⟩ := List.append_inj' h rfl
    exact .inl ⟨rfl, List.singleton_inj.1 hx, rfl⟩
  · rw [List.concat_eq_append, ← List.cons_append, ← List.append_assoc] at h
    obtain ⟨rfl, hx⟩ := List.append_inj' h rfl
    obtain rfl := List.singleton_inj.1 hx
    exact .inr ⟨after', List.concat_eq_append, rfl⟩

/-- In a step the application is told at most one thing, and that last. -/
theorem Step.told_last (hs : Step T h x g l y) :
    (∀ e ∈ l, e.consult? = none) ∨
    ∃ l₀ z n, l = l₀ ++ [Standing.telling z n] ∧ y = z.tell h n ∧ ∀ e ∈ l₀, e.consult? = none := by
  cases hs with
  | done ha => exact .inl (List.forall_mem_singleton.2 rfl)
  | fatal ha hf => exact .inl (List.forall_mem_singleton.2 rfl)
  | failed ha hf => exact .inr ⟨[_], _, _, rfl, rfl, List.forall_mem_singleton.2 rfl⟩
  | event ho => exact .inr ⟨[], _, _, rfl, rfl, by simp⟩
  | sweep now s m u => exact .inl (by simp)
  | shutdown now s m u => exact .inl (by simp)
  | report s m d u => exact .inr ⟨[], _, _, rfl, rfl, by simp⟩

/-- The entry of a step in which the application is told something is its last, and what the
application makes of it is what it remembers behind the step. -/
theorem Step.last_of_told {before after : List (Entry β σ)} (hs : Step T h x g (before ++ e :: after) y)
    (he : e.consult? = some k) : after = [] ∧ y.memory = (h.react k.memory k.news).2 := by
  rcases hs.told_last with hnone | ⟨l₀, z, n, hl, rfl, hnone⟩
  · simp [hnone e (by simp)] at he
  · rcases eq_of_concat_eq hl.symm with ⟨-, rfl, rfl⟩ | ⟨after', -, rfl⟩
    · cases he
      exact ⟨rfl, rfl⟩
    · simp [hnone e (by simp)] at he

namespace Trace

theorem of_step (hs : Step T h x g l y) : Trace T h x g l y := by
  simpa using Trace.step hs (.refl y)

theorem trans (ht : Trace T h x g l y) (ht' : Trace T h y g' l' z) :
    Trace T h x (g ++ g') (l ++ l') z := by
  induction ht with
  | refl x => exact ht'
  | step hs _ ih =>
    rw [List.append_assoc, List.append_assoc]
    exact .step hs (ih ht')

/-- What every step keeps of the past and of how a run stands holds behind all steps. -/
theorem keeps {K : List (Entry β σ) → Standing β σ → Prop}
    (hstep : ∀ {past x g l y}, K past x → Step T h x g l y → K (past ++ l) y)
    (ht : Trace T h x g l y) (past : List (Entry β σ)) (hx : K past x) : K (past ++ l) y := by
  induction ht generalizing past with
  | refl x => simpa using hx
  | step hs _ ih =>
    rw [← List.append_assoc]
    exact ih _ (hstep hx hs)

/-- Whenever the application is told something, a step has come to its end. -/
theorem split_told {before after : List (Entry β σ)} (ht : Trace T h x g (before ++ e :: after) z)
    (he : e.consult? = some k) : ∃ g₁ g₂ b l x₁ x₂, Trace T h x g₁ b x₁ ∧ Step T h x₁ g₂ l x₂ ∧
      b ++ l = before ++ [e] ∧ k ∈ consulted l ∧ x₂.memory = (h.react k.memory k.news).2 := by
  generalize hl : before ++ e :: after = l at ht
  induction ht generalizing before with
  | refl x => simp at hl
  | @step x y z g g' l l' hs ht ih =>
    rcases List.append_eq_append_iff.1 hl with ⟨c, rfl, hc⟩ | ⟨c, rfl, hc⟩
    · -- the entry stands in the first step, unless the step enters just what is before it
      cases c with
      | nil =>
        obtain ⟨_, g₂, b, l₁, x₁, x₂, htb, hsb, hb, hrest⟩ := ih (show [] ++ e :: after = l' from hc)
        refine ⟨_, g₂, before ++ b, l₁, x₁, x₂, .step (by simpa using hs) htb, hsb, ?_, hrest⟩
        rw [List.append_assoc, hb, List.nil_append]
      | cons e' c =>
        obtain ⟨rfl, rfl⟩ := List.cons.inj hc
        obtain ⟨rfl, hm⟩ := hs.last_of_told he
        exact ⟨[], _, [], _, x, y, .refl x, hs, rfl, List.mem_filterMap.2 ⟨e, by simp, he⟩, hm⟩
    · obtain ⟨_, g₂, b, l₁, x₁, x₂, htb, hsb, hb, hrest⟩ := ih hc.symm
      refine ⟨_, g₂, l ++ b, l₁, x₁, x₂, .step hs htb, hsb, ?_, hrest⟩
      rw [List.append_assoc, hb, List.append_assoc]

/-- What the application has been told is all that has changed its memory. -/
theorem remembered (ht : Trace T h x g l y) : y.memory = h.remembers x.memory (newsOf l) := by
  have hstep : ∀ {past : List (Entry β σ)} {x' g l y'}, x'.memory = h.remembers x.memory (newsOf past) →
      Step T h x' g l y' → y'.memory = h.remembers x.memory (newsOf (past ++ l)) := by
    intro past x' g l y' hm hs
    rw [newsOf_append, Handler.remembers, List.foldl_append]
    rw [Handler.remembers] at hm
    rw [← hm]
    cases hs <;> rfl
  exact ht.keeps (K := fun past y => y.memory = h.remembers x.memory (newsOf past)) hstep [] rfl

end Trace

/-! ### Records are made of steps -/

/-- A record is made of steps that take some signals; when engine, transport and memory are returned, it
ends in these, with the dialogues `u` unreported and nothing waiting. -/
def Leads (T : Transport β) (h : Handler σ) (x : Standing β σ) (g : List (Millis × Signal))
    (l : List (Entry β σ)) (u : List Dialogue) (returned : Option (Linked β × σ)) : Prop :=
  ∃ y, Trace T h x g l y ∧ ∀ s m, returned = some (s, m) → y = ⟨s, m, u, []⟩

theorem Leads.step {returned : Option (Linked β × σ)} (hs : Step T h x g l y)
    (hl : Leads T h y g' l' u returned) : Leads T h x (g ++ g') (l ++ l') u returned := by
  obtain ⟨z, ht, hz⟩ := hl
  exact ⟨z, .step hs ht, hz⟩

section Leads

variable (T : Transport β) (h : Handler σ) (now : Millis) (bound : Nat) (u : List Dialogue)
  (s : Linked β) (m : σ)

theorem leads_recordFor (actions : List Action) :
    Leads T h ⟨s, m, u, actions⟩ [] (recordFor T h now u bound s m actions) u
      ((performFor T h now bound s m actions).map (·.2)) := by
  induction bound generalizing s m actions with
  | zero =>
    cases actions with
    | nil => exact ⟨_, .refl _, by rintro _ _ ⟨⟩; rfl⟩
    | cons a rest => exact ⟨_, .refl _, by rintro _ _ ⟨⟩⟩
  | succ bound ih =>
    cases actions with
    | nil => exact ⟨_, .refl _, by rintro _ _ ⟨⟩; rfl⟩
    | cons a rest =>
      rw [recordFor, performFor]
      rcases ha : s.execute T now a with ⟨f | ⟨⟩, s'⟩
      · by_cases hf : f.isFatal
        · simp only [hf, if_true]
          exact .step (.fatal ha hf) ⟨_, .refl _, by rintro _ _ ⟨⟩; rfl⟩
        · simp only [hf, Bool.false_eq_true, if_false]
          exact .step (.failed ha hf) (ih ..)
      · exact .step (.done ha) (ih ..)

/-- Telling the application something leads on with what it asks for. -/
theorem leads_recordOn {n : Notice}
    (hs : Step T h x g [Standing.telling ⟨s, m, u, []⟩ n] (Standing.tell h ⟨s, m, u, []⟩ n)) :
    Leads T h x g (recordOn T h now bound u s m n) u ((notify T h now bound s m n).map (·.2)) := by
  have hl := Leads.step hs (leads_recordFor T h now bound u s (h.react m n).2 (h.react m n).1)
  rw [List.append_nil] at hl
  exact hl

theorem leads_recordReporting (ds : List Dialogue) :
    Leads T h ⟨s, m, ds ++ u, []⟩ [] (recordReporting T h now bound u s m ds).1
      (recordReporting T h now bound u s m ds).2
      ((reportTimeouts T h now bound s m ds).map (·.2)) := by
  induction ds generalizing s m with
  | nil => exact ⟨_, .refl _, by rintro _ _ ⟨⟩; rfl⟩
  | cons d rest ih =>
    obtain ⟨y, ht, hy⟩ := leads_recordOn T h now bound (rest ++ u) s m (.report s m d (rest ++ u))
    rw [recordReporting, reportTimeouts]
    rcases hn : notify T h now bound s m (.timeout d) with _ | ⟨f | ⟨⟩, s', m'⟩ <;>
      simp only [hn] at hy ⊢
    · exact ⟨y, ht, by rintro _ _ ⟨⟩⟩
    · exact ⟨y, ht, hy⟩
    · obtain rfl := hy s' m' rfl
      obtain ⟨z, ht', hz⟩ := ih s' m'
      exact ⟨z, ht.trans ht', hz⟩

/-- What happens at a signal leads to the engine and the memory behind it. -/
theorem leads_recordOf (sig : Signal) :
    Leads T h ⟨s, m, u, []⟩ [(now, sig)] (recordOf T h now bound u s m sig).1
      (recordOf T h now bound u s m sig).2 (pass T h now bound s m sig) := by
  cases sig with
  | shutdown => exact .step (.shutdown now s m u) ⟨_, .refl _, by rintro _ _ ⟨⟩; rfl⟩
  | tick => exact .step (.sweep now s m u) (leads_recordReporting ..)
  | event ev =>
    have hmap : pass T h now bound s m (.event ev) =
        (notify T h now bound { s with engine := (s.engine.observe now ev).2.1 } m
          (s.engine.observe now ev).1).map (·.2) := Option.map_map ..
    rw [hmap]
    exact leads_recordOn T h now bound u _ m (.event rfl)

omit now in
/-- The record of a run is made of steps. -/
theorem exists_trace_record (signals : List (Millis × Signal)) :
    ∃ g y, Trace T h ⟨s, m, u, []⟩ g (record T h bound s m u signals) y := by
  induction signals generalizing s m u with
  | nil => exact ⟨[], _, .refl _⟩
  | cons signal rest ih =>
    obtain ⟨now, sig⟩ := signal
    obtain ⟨y, ht, hy⟩ := leads_recordOf T h now bound u s m sig
    rw [record]
    cases hp : pass T h now bound s m sig with
    | none => exact ⟨_, y, by simpa using ht⟩
    | some r =>
      obtain rfl := hy r.1 r.2 hp
      obtain ⟨_, z, ht'⟩ := ih (recordOf T h now bound u s m sig).2 r.1 r.2
      exact ⟨_, z, ht.trans ht'⟩

end Leads

/-! ### Back from what is read off -/

section Back

variable {signals : List (Millis × Signal)}

/-- At each moment of a run a step comes to its end. -/
theorem exists_step_of_consults_eq {before after : List (Consult σ)}
    (hk : consults T h bound s m u signals = before ++ k :: after) :
    ∃ g g' b l x y, Trace T h ⟨s, m, u, []⟩ g b x ∧ Step T h x g' l y ∧ k ∈ consulted l ∧
      newsOf b ++ newsOf l = (before ++ [k]).map (·.news) := by
  obtain ⟨l₁, e, l₂, hl, rfl, he⟩ := eq_append_of_consulted_eq hk
  obtain ⟨_, z, ht⟩ := exists_trace_record T h bound u s m signals
  obtain ⟨g, g', b, l, x, y, htb, hs, hbl, hkl, -⟩ := (hl ▸ ht).split_told he
  refine ⟨g, g', b, l, x, y, htb, hs, hkl, ?_⟩
  rw [← newsOf_append, hbl, newsOf, consulted_append]
  simp [consulted, he]

/-- Behind all news of a history steps have come to their end. -/
theorem exists_trace_of_history_eq {before after : List (Happening β σ)} {m' : σ} {n : Notice}
    (hl : history T h bound s m signals = before ++ .told m' n :: after) :
    ∃ g es y, Trace T h ⟨s, m, [], []⟩ g es y ∧ es.map (·.happening) = before ++ [.told m' n] ∧
      y.memory = (h.react m' n).2 := by
  obtain ⟨es, rest, hrec, hes, hrest⟩ := List.map_eq_append_iff.1 hl
  obtain ⟨e, es', rfl, he, -⟩ := List.map_eq_cons_iff.1 hrest
  have hk : e.consult? = some ⟨e.engine, m', n, e.unreported⟩ := by
    rw [Entry.consult?, he]
    rfl
  obtain ⟨_, z, ht⟩ := exists_trace_record T h bound [] s m signals
  obtain ⟨_, _, b, l, x, y, htb, hs, hbl, -, hm⟩ := (hrec ▸ ht).split_told hk
  refine ⟨_, b ++ l, y, htb.trans (.of_step hs), ?_, hm⟩
  rw [hbl, List.map_append, hes, List.map_singleton, he]

end Back

end Linked

end Negotiation
