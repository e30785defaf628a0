import Mathlib.Data.List.Forall2
import Negotiation.Proofs.Agent.Bounds
import Negotiation.Proofs.Agent.Commits
import Negotiation.Proofs.Agent.Order

/-!
What failures do to an engine. A message that is refused, an action that is illegal and a transport that
refuses a message are reported to the application and nothing more; only a table without room ends a
run. An application that asks for more when an action fails may go on for ever; for one that does not
(`Handler.Settles`), every event is handled and every run comes to its end. Main statement:
`failures_pass`.
-/

namespace Negotiation

theorem Failure.eq_tableFull {f : Failure} (h : f.isFatal) : ∃ capacity, f = .tableFull capacity := by
  cases f with
  | tableFull capacity => exact ⟨capacity, rfl⟩
  | _ => cases h

/-- The news that matches an event that is not refused. -/
inductive Event.Tells : Event → Notice → Prop
  | agent (m : Message) (d : Dialogue) (hd : d.lastAnswer = m.answer) : Tells (.agent m) (.ofBody d m.body)
  | searchResult (id : RequestId) (agents : List Address) :
      Tells (.searchResult id agents) (.searchResult id agents)
  | searchResultWide (id : RequestId) (items : List SearchItem) :
      Tells (.searchResultWide id items) (.searchResultWide id items)
  | requestError (id : AnswerId) (operation : Operation) (cause detail : Option String) :
      Tells (.requestError id operation cause detail) (.requestError id operation cause detail)
  | dialogueError (answer : AnswerId) (id : DialogueId) (origin : Address) (d : Option Dialogue) :
      Tells (.dialogueError answer id origin) (.dialogueError id origin d)

/-- The news that an event leads to: it is told, or it is a message and refused. -/
def Event.Reported (ev : Event) (n : Notice) : Prop :=
  ev.Tells n ∨ ∃ m f, ev = .agent m ∧ n = .rejected m f

/-- Observing a message that is refused changes nothing. -/
theorem Engine.observe_of_refused {e : Engine} {now : Millis} {m : Message} {f : Failure}
    (h : e.receive m now = .error f) : e.observe now (.agent m) = (.rejected m f, e, .error f) := by
  rw [observe, h]

/-- Any other event is told of. -/
theorem Engine.observe_of_taken {e : Engine} {now : Millis} {ev : Event}
    (h : ∀ m f, ev = .agent m → e.receive m now ≠ .error f) :
    ev.Tells (e.observe now ev).1 ∧ (e.observe now ev).2.2 = .ok () := by
  cases ev with
  | agent m =>
    rw [observe]
    cases hr : e.receive m now with
    | error f => exact absurd hr (h m f rfl)
    | ok r =>
      obtain ⟨hrec, -⟩ := receive_eq_ok_iff.1 hr
      obtain ⟨-, s, -, hd⟩ := Dialogue.receive_eq_ok_iff.1 hrec
      refine ⟨.agent m r.1 ?_, rfl⟩
      rw [hd]
      exact Dialogue.touch_lastAnswer ..
  | searchResult id agents => exact ⟨.searchResult id agents, rfl⟩
  | searchResultWide id items => exact ⟨.searchResultWide id items, rfl⟩
  | requestError id operation cause detail => exact ⟨.requestError id operation cause detail, rfl⟩
  | dialogueError answer id origin => exact ⟨.dialogueError answer id origin _, rfl⟩

theorem Engine.reported_observe (e : Engine) (now : Millis) (ev : Event) :
    ev.Reported (e.observe now ev).1 := by
  by_cases h : ∃ m f, ev = .agent m ∧ e.receive m now = .error f
  · obtain ⟨m, f, rfl, hr⟩ := h
    exact .inr ⟨m, f, rfl, by rw [observe_of_refused hr]⟩
  · exact .inl (observe_of_taken fun m f hev hr => h ⟨m, f, hev, hr⟩).1

namespace Linked

variable {β σ : Type} {T : Transport β} {h : Handler σ} {now : Millis} {bound bound' : Nat}
  {s s' : Linked β} {m m' : σ} {u : List Dialogue} {r : Outcome β σ} {f : Failure}

/-! ### Verdicts -/

/-- One of some executed actions fails, and fatally. -/
def Fatal (T : Transport β) (now : Millis) (ps : List (Linked β × Action)) (f : Failure) : Prop :=
  f.isFatal ∧ ∃ p ∈ ps, (p.1.execute T now p.2).1 = .error f

/-- What some executed actions come to: a result that is given, unless one of them fails fatally. -/
def Verdict (T : Transport β) (now : Millis) (ps : List (Linked β × Action))
    (given result : Except Failure Unit) : Prop :=
  (result = given ∧ ∀ f, ¬ Fatal T now ps f) ∨ ∃ f, result = .error f ∧ Fatal T now ps f

theorem verdict_nil (given : Except Failure Unit) : Verdict T now [] given given :=
  .inl ⟨rfl, fun f ⟨_, p, hp, _⟩ => by cases hp⟩

/-- An action that does not fail fatally does not count. -/
theorem Verdict.cons {ps : List (Linked β × Action)} {given result : Except Failure Unit} {a : Action}
    (hv : Verdict T now ps given result) (ha : ∀ f, (s.execute T now a).1 = .error f → ¬ f.isFatal) :
    Verdict T now ((s, a) :: ps) given result := by
  rcases hv with ⟨hr, hnone⟩ | ⟨f, hr, hfatal, p, hp, hf⟩
  · refine .inl ⟨hr, ?_⟩
    rintro f ⟨hfatal, p, hp, hf⟩
    rcases List.mem_cons.1 hp with rfl | hp
    · exact ha f hf hfatal
    · exact hnone f ⟨hfatal, p, hp, hf⟩
  · exact .inr ⟨f, hr, hfatal, p, List.mem_cons_of_mem _ hp, hf⟩

/-- Another result may be given when all ends well. -/
theorem Verdict.bind {ps : List (Linked β × Action)} {result : Except Failure Unit}
    (hv : Verdict T now ps (.ok ()) result) (given : Except Failure Unit) :
    Verdict T now ps given (result.bind fun _ => given) := by
  rcases hv with ⟨rfl, hnone⟩ | ⟨f, rfl, hfatal⟩
  · exact .inl ⟨rfl, hnone⟩
  · exact .inr ⟨f, rfl, hfatal⟩

/-- The actions that are executed when an application is told something. -/
def executedOn (T : Transport β) (h : Handler σ) (now : Millis) (bound : Nat) (s : Linked β) (m : σ)
    (n : Notice) : List (Linked β × Action) :=
  let (actions, m') := h.react m n
  executed T h now bound s m' actions

/-- Performing ends well, unless one of the actions fails fatally. -/
theorem Performs.verdict {actions : List Action} {ps : List (Linked β × Action)}
    (hp : Performs T h now s m actions ps r) : Verdict T now ps (.ok ()) r.1 := by
  induction hp with
  | done s m => exact verdict_nil _
  | passed ha _ ih =>
    refine ih.cons fun g hg => ?_
    rw [ha] at hg
    cases hg
  | failed ha hf _ ih =>
    refine ih.cons fun g hg => ?_
    rw [ha] at hg
    cases hg
    exact hf
  | @fatal s s₁ m a f rest ha hf => exact .inr ⟨f, rfl, hf, (s, a), List.mem_cons_self, by rw [ha]⟩

theorem notify_verdict {n : Notice} (hr : notify T h now bound s m n = some r) :
    Verdict T now (executedOn T h now bound s m n) (.ok ()) r.1 :=
  (performs_of_performFor hr).verdict

/-- A sweep and its reports end well, or with a fatal failure. -/
theorem reportTimeouts_verdict {ds : List Dialogue} (hr : reportTimeouts T h now bound s m ds = some r) :
    r.1 = .ok () ∨ ∃ f, r.1 = .error f ∧ f.isFatal := by
  induction ds generalizing s m with
  | nil =>
    cases hr
    exact .inl rfl
  | cons d rest ih =>
    obtain ⟨⟨verdict, s₁, m₁⟩, hn, hr⟩ := Option.bind_eq_some_iff.1 hr
    cases verdict with
    | ok => exact ih hr
    | error f =>
      cases hr
      obtain ⟨g, hg, hfatal, -⟩ := (notify_verdict hn).resolve_left (by rintro ⟨⟨⟩, -⟩)
      exact .inr ⟨g, hg, hfatal⟩

/-! ### What is told -/

/-- While actions are performed, an application is only told of those that fail. -/
theorem news_consultsFor (T : Transport β) (h : Handler σ) (now : Millis) (u : List Dialogue) (bound : Nat)
    (s : Linked β) (m : σ) (actions : List Action) :
    ∀ k ∈ consultsFor T h now u bound s m actions, ∃ a f, k.news = .actionFailed a f := by
  intro k hk
  have hnews : k.news ∈ (executed T h now bound s m actions).filterMap (setback? T now) :=
    news_eq_setbacks T h now u bound s m actions ▸ List.mem_map_of_mem hk
  obtain ⟨p, -, hp⟩ := List.mem_filterMap.1 hnews
  rw [setback?] at hp
  split at hp
  · cases hp
  · next f _ =>
    split at hp
    · cases hp
    · exact ⟨p.2, f, (Option.some.inj hp).symm⟩

/-- The news of events among what an application is told. -/
def inbound (ks : List (Consult σ)) : List Notice := (ks.map (·.news)).filter (·.isInbound)

theorem inbound_append (ks ks' : List (Consult σ)) : inbound (ks ++ ks') = inbound ks ++ inbound ks' := by
  rw [inbound, List.map_append, List.filter_append]
  rfl

section Inbound

variable (T : Transport β) (h : Handler σ) (now : Millis) (bound : Nat) (u : List Dialogue)
  (s : Linked β) (m : σ)

/-- Of what follows from some news, only the news itself can be of an event. -/
theorem inbound_recordOn (n : Notice) :
    inbound (consulted (recordOn T h now bound u s m n)) = if n.isInbound then [n] else [] := by
  have hrest : inbound (consultsFor T h now u bound s (h.react m n).2 (h.react m n).1) = [] := by
    rw [inbound, List.filter_eq_nil_iff, List.forall_mem_map]
    intro k hk
    obtain ⟨a, f, hn⟩ := news_consultsFor T h now u bound s _ _ k hk
    rw [hn]
    exact Bool.false_ne_true
  show inbound ([⟨s.engine, m, n, u⟩] ++ consultsFor T h now u bound s (h.react m n).2 (h.react m n).1) = _
  rw [inbound_append, hrest, List.append_nil]
  cases hn : n.isInbound <;> simp [inbound, hn]

/-- Sweeps bring no news of events. -/
theorem inbound_recordReporting (ds : List Dialogue) :
    inbound (consulted (recordReporting T h now bound u s m ds).1) = [] := by
  induction ds generalizing s m with
  | nil => rfl
  | cons d rest ih =>
    have htold : inbound (consulted (recordOn T h now bound (rest ++ u) s m (.timeout d))) = [] :=
      inbound_recordOn ..
    rw [recordReporting]
    split
    · rw [consulted_append, inbound_append, htold, ih]
      rfl
    · exact htold

end Inbound

/-! ### Events -/

/-- What taking an event comes to. A message that is refused is reported as such, before anything has
changed, and the result is its failure; of any other event the matching news is told, and the result is
good. In both cases this is the only news of an event, and when one of the actions that the application
then asks for fails fatally, that failure is the result instead. -/
structure Taking (T : Transport β) (h : Handler σ) (now : Millis) (bound : Nat) (s : Linked β) (m : σ)
    (ev : Event) (r : Outcome β σ) : Prop where
  refused : ∀ msg f, ev = .agent msg → s.engine.receive msg now = .error f →
    ∃ rest, consults T h bound s m [] [(now, .event ev)] = ⟨s.engine, m, .rejected msg f, []⟩ :: rest ∧
      (∀ k ∈ rest, ∃ a g, k.news = .actionFailed a g) ∧
      Verdict T now (executedOn T h now bound s m (.rejected msg f)) (.error f) r.1
  told : (∀ msg f, ev = .agent msg → s.engine.receive msg now ≠ .error f) →
    ∃ engine n rest, consults T h bound s m [] [(now, .event ev)] = ⟨engine, m, n, []⟩ :: rest ∧
      ev.Tells n ∧ (∀ k ∈ rest, ∃ a g, k.news = .actionFailed a g) ∧
      Verdict T now (executedOn T h now bound { s with engine } m n) (.ok ()) r.1
  /-- The executed actions lead from the engine that has observed the event to the one returned. -/
  chained : Chained T now { s with engine := (s.engine.observe now ev).2.1 }
    (executedOn T h now bound { s with engine := (s.engine.observe now ev).2.1 } m
      (s.engine.observe now ev).1) r.2.1
  /-- The steps of the record, with its moments, take the event and end in the engine and the memory
  returned. -/
  leads : Trace T h ⟨s, m, [], []⟩ [(now, .event ev)] (record T h bound s m [] [(now, .event ev)])
    ⟨r.2.1, r.2.2, [], []⟩
  /-- What the application has been told is all that has changed its memory. -/
  remembered : r.2.2 = h.remembers m ((consults T h bound s m [] [(now, .event ev)]).map (·.news))

theorem record_singleton (T : Transport β) (h : Handler σ) (now : Millis) (bound : Nat) (s : Linked β)
    (m : σ) (u : List Dialogue) (sig : Signal) :
    record T h bound s m u [(now, sig)] = (recordOf T h now bound u s m sig).1 := by
  rw [record]
  cases pass T h now bound s m sig <;> exact List.append_nil _

theorem taking_of_handle {ev : Event} (hr : handle T h now bound s m ev = some r) :
    Taking T h now bound s m ev r := by
  have hpass : pass T h now bound s m (.event ev) = some r.2 := by
    rw [pass, hr]
    rfl
  have hk : consults T h bound s m [] [(now, .event ev)] =
      ⟨(s.engine.observe now ev).2.1, m, (s.engine.observe now ev).1, []⟩ ::
        consultsFor T h now [] bound { s with engine := (s.engine.observe now ev).2.1 }
          (h.react m (s.engine.observe now ev).1).2 (h.react m (s.engine.observe now ev).1).1 := by
    rw [consults, record_singleton]
    rfl
  have hrest := news_consultsFor T h now [] bound { s with engine := (s.engine.observe now ev).2.1 }
    (h.react m (s.engine.observe now ev).1).2 (h.react m (s.engine.observe now ev).1).1
  obtain ⟨y, ht, hy⟩ := leads_recordOf T h now bound [] s m (.event ev)
  obtain rfl := hy _ _ hpass
  rw [← record_singleton] at ht
  obtain ⟨r', hn, rfl⟩ := handle_eq_some_iff.1 hr
  have hverdict := notify_verdict hn
  refine ⟨?_, ?_, (performs_of_performFor hn).chained, ht, ht.remembered⟩
  · rintro msg f rfl hf
    rw [Engine.observe_of_refused hf] at hk hrest hverdict ⊢
    exact ⟨_, hk, hrest, hverdict.bind (.error f)⟩
  · intro htaken
    obtain ⟨htells, hok⟩ := Engine.observe_of_taken htaken
    rw [hok]
    exact ⟨_, _, _, hk, htells, hrest, hverdict.bind (.ok ())⟩

/-! ### Runs -/

/-- A signal from which a run goes on. -/
inductive Continues (T : Transport β) (h : Handler σ) (now : Millis) (bound : Nat) (s : Linked β) (m : σ) :
    Signal → Linked β → σ → Prop
  | tick {s₁ : Linked β} {m₁ : σ} (hs : sweepAndReport T h now bound s m = some (.ok (), s₁, m₁)) :
      Continues T h now bound s m .tick s₁ m₁
  | event {ev : Event} {v : Except Failure Unit} {s₁ : Linked β} {m₁ : σ}
      (hh : handle T h now bound s m ev = some (v, s₁, m₁)) (hv : ∀ f, v = .error f → ¬ f.isFatal) :
      Continues T h now bound s m (.event ev) s₁ m₁

/-- A signal at which a run ends with a failure. -/
inductive Raises (T : Transport β) (h : Handler σ) (now : Millis) (bound : Nat) (s : Linked β) (m : σ) :
    Signal → Failure → Linked β → σ → Prop
  | tick {f : Failure} {s₁ : Linked β} {m₁ : σ}
      (hs : sweepAndReport T h now bound s m = some (.error f, s₁, m₁)) :
      Raises T h now bound s m .tick f s₁ m₁
  | event {ev : Event} {f : Failure} {s₁ : Linked β} {m₁ : σ}
      (hh : handle T h now bound s m ev = some (.error f, s₁, m₁)) (hf : f.isFatal) :
      Raises T h now bound s m (.event ev) f s₁ m₁

theorem Raises.isFatal {sig : Signal} (hr : Raises T h now bound s m sig f s' m') : f.isFatal := by
  cases hr with
  | tick hs =>
    obtain ⟨g, hg, hfatal⟩ := (reportTimeouts_verdict hs).resolve_left (by rintro ⟨⟩)
    cases hg
    exact hfatal
  | event hh hf => exact hf

theorem run_of_continues {sig : Signal} (hc : Continues T h now bound s m sig s' m')
    (rest : List (Millis × Signal)) : run T h bound s m ((now, sig) :: rest) = run T h bound s' m' rest := by
  cases hc with
  | tick hs =>
    rw [run, hs]
    rfl
  | @event _ v _ _ hh hv =>
    rw [run, hh]
    cases v with
    | ok => rfl
    | error f => exact if_neg (hv f rfl)

/-- A run stops at a shutdown, or goes on, or ends with a failure. -/
theorem run_cons_cases {sig : Signal} {rest : List (Millis × Signal)}
    (hr : run T h bound s m ((now, sig) :: rest) = some r) :
    (sig = .shutdown ∧ r = (.ok (), s, m)) ∨
    (∃ s' m', Continues T h now bound s m sig s' m' ∧ run T h bound s' m' rest = some r) ∨
    ∃ f s' m', Raises T h now bound s m sig f s' m' ∧ r = (.error f, s', m') := by
  cases sig with
  | shutdown =>
    cases hr
    exact .inl ⟨rfl, rfl⟩
  | tick =>
    obtain ⟨⟨v, s', m'⟩, hs, hv⟩ := Option.bind_eq_some_iff.1 hr
    cases v with
    | ok => exact .inr (.inl ⟨s', m', .tick hs, hv⟩)
    | error f =>
      cases hv
      exact .inr (.inr ⟨f, s', m', .tick hs, rfl⟩)
  | event ev =>
    obtain ⟨⟨v, s', m'⟩, hh, hv⟩ := Option.bind_eq_some_iff.1 hr
    cases v with
    | ok => exact .inr (.inl ⟨s', m', .event hh (by simp), hv⟩)
    | error f =>
      simp only at hv
      by_cases hf : f.isFatal
      · rw [if_pos hf] at hv
        cases hv
        exact .inr (.inr ⟨f, s', m', .event hh hf, rfl⟩)
      · rw [if_neg hf] at hv
        refine .inr (.inl ⟨s', m', .event hh ?_, hv⟩)
        rintro g ⟨⟩
        exact hf

/-- The events among signals. -/
def eventsOf : List (Millis × Signal) → List Event
  | [] => []
  | (_, .event ev) :: rest => ev :: eventsOf rest
  | _ :: rest => eventsOf rest

/-- Signals that a run has gone through up to some engine and memory: no shutdown is among them, and of
every event, in its turn, exactly one piece of news was told. -/
structure Passed (T : Transport β) (h : Handler σ) (bound : Nat) (s : Linked β) (m : σ)
    (done : List (Millis × Signal)) (s' : Linked β) (m' : σ) : Prop where
  running : ∀ t, (t, .shutdown) ∉ done
  reported : ∀ u, List.Forall₂ Event.Reported (eventsOf done) (inbound (consults T h bound s m u done))
  /-- The steps of the record, with its moments, take these signals and end in that engine and that
  memory. -/
  leads : ∀ u, ∃ u', Trace T h ⟨s, m, u, []⟩ done (record T h bound s m u done) ⟨s', m', u', []⟩
  /-- What the application has been told is all that has changed its memory. -/
  remembered : ∀ u, m' = h.remembers m ((consults T h bound s m u done).map (·.news))

theorem Passed.nil (T : Transport β) (h : Handler σ) (bound : Nat) (s : Linked β) (m : σ) :
    Passed T h bound s m [] s m := ⟨by simp, fun _ => .nil, fun u => ⟨u, .refl _⟩, fun _ => rfl⟩

theorem Passed.cons {sig : Signal} {done : List (Millis × Signal)} {s₁ : Linked β} {m₁ : σ}
    (hsig : sig ≠ .shutdown) (hs : pass T h now bound s m sig = some (s₁, m₁))
    (hp : Passed T h bound s₁ m₁ done s' m') : Passed T h bound s m ((now, sig) :: done) s' m' := by
  have hrecord : ∀ u, record T h bound s m u ((now, sig) :: done) =
      (recordOf T h now bound u s m sig).1 ++
        record T h bound s₁ m₁ (recordOf T h now bound u s m sig).2 done := by
    intro u
    rw [record, hs]
  have hleads : ∀ u, ∃ u', Trace T h ⟨s, m, u, []⟩ ((now, sig) :: done)
      (record T h bound s m u ((now, sig) :: done)) ⟨s', m', u', []⟩ := by
    intro u
    obtain ⟨y, ht, hy⟩ := leads_recordOf T h now bound u s m sig
    obtain rfl := hy _ _ hs
    obtain ⟨u', ht'⟩ := hp.leads (recordOf T h now bound u s m sig).2
    exact ⟨u', hrecord u ▸ ht.trans ht'⟩
  refine ⟨?_, fun u => ?_, hleads, fun u => ?_⟩
  · intro t ht
    rcases List.mem_cons.1 ht with h | h
    · exact hsig (congrArg Prod.snd h).symm
    · exact hp.running t h
  · rw [consults, hrecord, consulted_append, inbound_append]
    cases sig with
    | shutdown => exact absurd rfl hsig
    | tick =>
      rw [recordOf, inbound_recordReporting]
      exact hp.reported _
    | event ev =>
      rw [recordOf, inbound_recordOn, if_pos (s.engine.isInbound_observe now ev)]
      exact .cons (s.engine.reported_observe now ev) (hp.reported _)
  · obtain ⟨u', ht⟩ := hleads u
    exact ht.remembered

theorem Continues.passed {sig : Signal} {done : List (Millis × Signal)} {s₁ : Linked β} {m₁ : σ}
    (hc : Continues T h now bound s m sig s₁ m₁) (hp : Passed T h bound s₁ m₁ done s' m') :
    Passed T h bound s m ((now, sig) :: done) s' m' := by
  cases hc with
  | tick hs => exact .cons (by simp) (by rw [pass, hs]; rfl) hp
  | event hh hv => exact .cons (by simp) (by rw [pass, hh]; rfl) hp

theorem Raises.passed {sig : Signal} (hr : Raises T h now bound s m sig f s' m') :
    Passed T h bound s m [(now, sig)] s' m' := by
  cases hr with
  | tick hs => exact .cons (by simp) (by rw [pass, hs]; rfl) (.nil ..)
  | event hh hf => exact .cons (by simp) (by rw [pass, hh]; rfl) (.nil ..)

/-- How a run ends: it has gone through its signals up to a shutdown or the last of them, or up to one at
which a table had no room. -/
def Ends (T : Transport β) (h : Handler σ) (bound : Nat) (s : Linked β) (m : σ)
    (signals : List (Millis × Signal)) (r : Outcome β σ) : Prop :=
  ∃ done rest, signals = done ++ rest ∧ Passed T h bound s m done r.2.1 r.2.2 ∧
    ((r.1 = .ok () ∧ (rest = [] ∨ ∃ t tail, rest = (t, .shutdown) :: tail)) ∨
     ∃ capacity, r.1 = .error (.tableFull capacity) ∧ ∃ before now sig s' m',
       done = before ++ [(now, sig)] ∧ run T h bound s m before = some (.ok (), s', m') ∧
       Raises T h now bound s' m' sig (.tableFull capacity) r.2.1 r.2.2)

theorem Continues.ends {sig : Signal} {rest : List (Millis × Signal)}
    (hc : Continues T h now bound s m sig s' m') (he : Ends T h bound s' m' rest r) :
    Ends T h bound s m ((now, sig) :: rest) r := by
  obtain ⟨done, left, rfl, hp, hend⟩ := he
  refine ⟨(now, sig) :: done, left, rfl, hc.passed hp, hend.imp_right ?_⟩
  rintro ⟨capacity, hresult, before, t, last, s₁, m₁, rfl, hbefore, hraises⟩
  refine ⟨capacity, hresult, (now, sig) :: before, t, last, s₁, m₁, rfl, ?_, hraises⟩
  rw [run_of_continues hc, hbefore]

theorem ends_of_run {signals : List (Millis × Signal)} (hr : run T h bound s m signals = some r) :
    Ends T h bound s m signals r := by
  induction signals generalizing s m with
  | nil =>
    cases hr
    exact ⟨[], [], rfl, .nil .., .inl ⟨rfl, .inl rfl⟩⟩
  | cons signal rest ih =>
    obtain ⟨now, sig⟩ := signal
    rcases run_cons_cases hr with ⟨rfl, rfl⟩ | ⟨s', m', hc, hrest⟩ | ⟨f, s', m', hraises, rfl⟩
    · exact ⟨[], (now, .shutdown) :: rest, rfl, .nil .., .inl ⟨rfl, .inr ⟨now, rest, rfl⟩⟩⟩
    · exact hc.ends (ih hrest)
    · obtain ⟨capacity, rfl⟩ := Failure.eq_tableFull hraises.isFatal
      exact ⟨[(now, sig)], rest, rfl, hraises.passed,
        .inr ⟨capacity, rfl, [], now, sig, s, m, rfl, rfl, hraises⟩⟩

end Linked

open Linked

/-- PASSING: for an application that comes to an end over a transport, whatever the engine holds, whatever
    the application remembers and whatever the transport refuses: every event is handled, and what that
    comes to is `Taking`; every run has a result, however long it is allowed to be, and has gone through
    its signals in order up to the shutdown or the last of them, telling each event once, unless it ends
    with a table that has no room. The engine and the memory that are returned are those that the actions
    and the news of the record lead to. -/
theorem failures_pass {β σ : Type} {T : Transport β} {h : Handler σ} (hset : h.Settles T) (s : Linked β)
    (m : σ) :
    (∀ now ev, (∃ bound r, ∀ bound' ≥ bound, handle T h now bound' s m ev = some r) ∧
      ∀ bound r, handle T h now bound s m ev = some r → Taking T h now bound s m ev r) ∧
    ∀ signals, (∃ bound r, ∀ bound' ≥ bound, run T h bound' s m signals = some r) ∧
      ∀ bound r, run T h bound s m signals = some r → Ends T h bound s m signals r := by
  refine ⟨fun now ev => ⟨?_, fun bound r => taking_of_handle⟩,
    fun signals => ⟨?_, fun bound r => ends_of_run⟩⟩
  · obtain ⟨bound, r, hr⟩ := hset.handle now s m ev
    exact ⟨bound, r, fun bound' hle => handle_le hle hr⟩
  · obtain ⟨bound, r, hr⟩ := hset.run s m signals
    exact ⟨bound, r, fun bound' hle => run_le hle hr⟩

/-- A message that answers nothing is refused, the application accepts in a dialogue that there is not, a
sweep goes by, and the call after that is told of as well before the shutdown. -/
theorem refusal_passed :
    let e : Engine := { home := .ofKey "bob", table := .new {} 1 }
    let h : Handler Unit := ⟨fun _ n =>
      match n with
      | .rejected m _ => ([.accept m.dialogue], ())
      | _ => ([], ())⟩
    let stray : Message :=
      { answer := 9, dialogue := 7, origin := .ofKey "alice", target := 8, body := .accept }
    let call : Message := { stray with answer := 1, target := 0, body := .cfp .nothing }
    let s : Linked Recording := ⟨e, {}⟩
    let done : List (Millis × Signal) := [(0, .event (.agent stray)), (1, .tick), (2, .event (.agent call))]
    h.Settles .recorder ∧ (∃ r, run .recorder h 1 s () (done ++ [(3, .shutdown)]) = some r ∧
      r.1 = .ok () ∧ Ends .recorder h 1 s () (done ++ [(3, .shutdown)]) r) ∧
    ((consults .recorder h 1 s () [] done).map (·.news.name)) = ["rejected", "action_failed", "cfp"] := by
  intro e h stray call s done
  have hset : h.Settles .recorder := Handler.Quiet.settles (fun _ _ _ => rfl) .recorder
  have hrun : ((run .recorder h 1 s () (done ++ [(3, .shutdown)])).map (·.1)) = some (.ok ()) := by
    decide +kernel
  obtain ⟨r, hr, hok⟩ := Option.map_eq_some_iff.1 hrun
  exact ⟨hset, ⟨r, hr, hok, ((failures_pass hset s ()).2 _).2 1 r hr⟩, by decide +kernel⟩

end Negotiation
