import Negotiation.Proofs.Agent.Commits

/-!
Runs of an engine. What an engine does in its dialogues is a deed: it opens one, answers in one or
applies an event. The owner's calls are deeds, and an event leads to the deeds that the application
asks for; `deeds` lists all deeds of a run, each with the engine and the transport before it, also
those of an application that never comes to an end. A property that observing, sweeping and every
deed keep is had by every engine of the list, and by the engine behind the run.
-/

namespace Negotiation

/-- What an engine does in its dialogues. -/
inductive Deed where
  | opening (peer : Address) (body : Body)
  | answer (dialogue : DialogueId) (body : Body)
  | event (dialogue : DialogueId) (t : Transition)

/-- The deed of an action. -/
def Action.deed : Action → Deed
  | .cfp peer payload => .opening peer (.cfp payload)
  | .propose id proposal => .answer id (.propose proposal)
  | .accept id => .answer id .accept
  | .decline id => .answer id .decline
  | .message id content => .answer id (.message content)
  | .complete id => .event id .complete
  | .cancel id => .event id .cancel

/-- The message that a deed hands over, and the engine that has committed it. -/
def Engine.handover? (e : Engine) (now : Millis) : Deed → Option (Outgoing × Engine)
  | .opening peer body =>
    match e.opening now peer body with
    | (.ok m, e) => some (m, e)
    | (.error _, _) => none
  | .answer id body => (e.answering now id body).toOption
  | .event _ _ => none

namespace Linked

variable {β σ : Type}

/-- Does a deed. -/
def carryOut (T : Transport β) (now : Millis) (s : Linked β) : Deed → Except Failure Unit × Linked β
  | .opening peer body => done (s.openDialogue T now peer body)
  | .answer id body => s.reply T now id body
  | .event id t => done (s.apply now id t)

theorem execute_eq (T : Transport β) (now : Millis) (s : Linked β) (a : Action) :
    s.execute T now a = s.carryOut T now a.deed := by
  cases a <;> rfl

/-- The actions that are executed for an application, each with the engine before it. -/
def executed (T : Transport β) (h : Handler σ) (now : Millis) :
    Nat → Linked β → σ → List Action → List (Linked β × Action)
  | _, _, _, [] => []
  | 0, _, _, _ :: _ => []
  | bound + 1, s, m, a :: rest =>
    (s, a) ::
      match s.execute T now a with
      | (.ok (), s) => executed T h now bound s m rest
      | (.error f, s) =>
        if f.isFatal then []
        else
          let (more, m) := h.react m (.actionFailed a f)
          executed T h now bound s m (rest ++ more)

/-- Something that the owner of an engine does, or that reaches it. -/
inductive Call where
  | act (a : Action)
  | greet (peer : Address) (content : Bytes)
  | sweep
  | take (e : Event)

/-- The engine behind a call; none when the application does not come to an end. -/
def call (T : Transport β) (h : Handler σ) (bound : Nat) (now : Millis) (s : Linked β) (m : σ) :
    Call → Option (Linked β × σ)
  | .act a => some ((s.execute T now a).2, m)
  | .greet peer content => some ((s.openDialogue T now peer (.message content)).2, m)
  | .sweep => some ({ s with engine := (s.engine.sweep now).2 }, m)
  | .take e => (s.handle T h now bound m e).map (·.2)

/-- The deeds of a call, each with the engine before it. -/
def deedsOf (T : Transport β) (h : Handler σ) (bound : Nat) (now : Millis) (s : Linked β) (m : σ) :
    Call → List (Linked β × Deed)
  | .act a => [(s, a.deed)]
  | .greet peer content => [(s, .opening peer (.message content))]
  | .sweep => []
  | .take e =>
    let (news, engine, _) := s.engine.observe now e
    let (actions, m) := h.react m news
    (executed T h now bound { s with engine } m actions).map fun (s, a) => (s, a.deed)

/-- The engine behind some calls. -/
def calls (T : Transport β) (h : Handler σ) (bound : Nat) :
    Linked β → σ → List (Millis × Call) → Option (Linked β × σ)
  | s, m, [] => some (s, m)
  | s, m, (now, c) :: rest =>
    match call T h bound now s m c with
    | some (s, m) => calls T h bound s m rest
    | none => none

/-- The deeds of some calls, each with its time and the engine before it. -/
def deeds (T : Transport β) (h : Handler σ) (bound : Nat) :
    Linked β → σ → List (Millis × Call) → List (Millis × Linked β × Deed)
  | _, _, [] => []
  | s, m, (now, c) :: rest =>
    (deedsOf T h bound now s m c).map (now, ·) ++
      match call T h bound now s m c with
      | some (s, m) => deeds T h bound s m rest
      | none => []

/-- The messages that some calls hand over, each with the engine that has committed it. -/
def handed (T : Transport β) (h : Handler σ) (bound : Nat) (s : Linked β) (m : σ)
    (cs : List (Millis × Call)) : List (Outgoing × Engine) :=
  (deeds T h bound s m cs).flatMap fun (now, s, d) => (s.engine.handover? now d).toList

/-- Taking an event is observing it and performing what the application then asks for. -/
theorem performFor_of_call_take {T : Transport β} {h : Handler σ} {bound : Nat} {now : Millis}
    {s s' : Linked β} {m m' : σ} {e : Event} (hc : call T h bound now s m (.take e) = some (s', m')) :
    ∃ r, performFor T h now bound { s with engine := (s.engine.observe now e).2.1 }
      (h.react m (s.engine.observe now e).1).2 (h.react m (s.engine.observe now e).1).1 = some r ∧
      r.2.1 = s' := by
  obtain ⟨r, hr, he⟩ := Option.map_eq_some_iff.1 hc
  obtain ⟨r', hp, rfl⟩ := Option.map_eq_some_iff.1 hr
  exact ⟨r', hp, congrArg Prod.fst he⟩

/-! ### Actions that all succeed -/

/-- Actions succeed one after the other. -/
inductive Succeeds (T : Transport β) (now : Millis) : Linked β → List Action → Linked β → Prop
  | nil (s : Linked β) : Succeeds T now s [] s
  | cons {s s₁ s₂ : Linked β} {a : Action} {rest : List Action} (ha : s.execute T now a = (.ok (), s₁))
      (hrest : Succeeds T now s₁ rest s₂) : Succeeds T now s (a :: rest) s₂

namespace Succeeds

variable {T : Transport β} {now : Millis} {s s' : Linked β} {actions : List Action}

/-- The application hears of no failure. -/
theorem performFor_eq (hs : Succeeds T now s actions s') (h : Handler σ) (m : σ) {bound : Nat}
    (hb : actions.length ≤ bound) : performFor T h now bound s m actions = some (.ok (), s', m) := by
  induction hs generalizing bound with
  | nil => cases bound <;> rfl
  | cons ha _ ih =>
    obtain ⟨bound, rfl⟩ := Nat.exists_eq_add_of_lt (Nat.lt_of_lt_of_le (Nat.succ_pos _) hb)
    rw [Nat.zero_add, performFor, ha]
    exact ih (by simpa using hb)

theorem executed_ok (hs : Succeeds T now s actions s') (h : Handler σ) (m : σ) (bound : Nat) :
    ∀ p ∈ executed T h now bound s m actions, (p.1.execute T now p.2).1 = .ok () := by
  induction hs generalizing bound with
  | nil => cases bound <;> simp [executed]
  | cons ha _ ih =>
    cases bound with
    | zero => simp [executed]
    | succ bound =>
      rw [executed, List.forall_mem_cons, ha]
      exact ⟨rfl, ih bound⟩

end Succeeds

/-! ### Invariants -/

section Invariants

variable {T : Transport β} {h : Handler σ} {ok : Deed → Prop} {I : Linked β → Prop}

/-- What every deed keeps holds before each action that is executed, and behind the last. -/
theorem executed_keeps {now : Millis}
    (hdeed : ∀ {s : Linked β} {d : Deed}, ok d → I s → I (s.carryOut T now d).2)
    {bound : Nat} {s : Linked β} {m : σ} {actions : List Action} (hs : I s)
    (hok : ∀ p ∈ executed T h now bound s m actions, ok p.2.deed) :
    (∀ p ∈ executed T h now bound s m actions, I p.1) ∧
    ∀ r, performFor T h now bound s m actions = some r → I r.2.1 := by
  induction bound generalizing s m actions with
  | zero =>
    cases actions with
    | nil => exact ⟨by simp [executed], by rintro r ⟨⟩; exact hs⟩
    | cons a rest => exact ⟨by simp [executed], by rintro r ⟨⟩⟩
  | succ bound ih =>
    cases actions with
    | nil => exact ⟨by simp [executed], by rintro r ⟨⟩; exact hs⟩
    | cons a rest =>
      have ha : ok a.deed := hok (s, a) (by simp [executed])
      have hnext : I (s.execute T now a).2 := execute_eq T now s a ▸ hdeed ha hs
      simp only [executed, List.forall_mem_cons] at hok ⊢
      rw [performFor]
      rcases he : s.execute T now a with ⟨f | ⟨⟩, s'⟩ <;> simp only [he] at hnext hok ⊢
      · -- a failed action: the application may ask for more
        by_cases hf : f.isFatal
        · simp only [hf, if_true]
          exact ⟨⟨hs, by simp⟩, by rintro r ⟨⟩; exact hnext⟩
        · simp only [hf, Bool.false_eq_true, if_false] at hok ⊢
          obtain ⟨hall, hlast⟩ := ih hnext hok.2
          exact ⟨⟨hs, hall⟩, hlast⟩
      · obtain ⟨hall, hlast⟩ := ih hnext hok.2
        exact ⟨⟨hs, hall⟩, hlast⟩

variable {bound : Nat} {known : Event → Prop}

/-- What observing, sweeping and every deed keep, a call keeps. -/
theorem call_keeps {now : Millis} {s : Linked β} {m : σ} {c : Call}
    (hdeed : ∀ {s : Linked β} {d : Deed}, ok d → I s → I (s.carryOut T now d).2)
    (hobserve : ∀ {s : Linked β} {e : Event}, known e → I s →
      I { s with engine := (s.engine.observe now e).2.1 })
    (hsweep : ∀ {s : Linked β}, I s → I { s with engine := (s.engine.sweep now).2 })
    (hs : I s) (hknown : ∀ e, c = .take e → known e)
    (hok : ∀ p ∈ deedsOf T h bound now s m c, ok p.2) :
    (∀ p ∈ deedsOf T h bound now s m c, I p.1) ∧
    ∀ s' m', call T h bound now s m c = some (s', m') → I s' := by
  cases c with
  | act a =>
    have ha : ok a.deed := hok (s, a.deed) (by simp [deedsOf])
    refine ⟨by simpa [deedsOf] using hs, ?_⟩
    rintro s' m' ⟨⟩
    exact execute_eq T now s a ▸ hdeed ha hs
  | greet peer content =>
    have hd : ok (.opening peer (.message content)) := hok (s, _) (by simp [deedsOf])
    refine ⟨by simpa [deedsOf] using hs, ?_⟩
    rintro s' m' ⟨⟩
    exact hdeed hd hs
  | sweep =>
    refine ⟨by simp [deedsOf], ?_⟩
    rintro s' m' ⟨⟩
    exact hsweep hs
  | take e =>
    have hseen := hobserve (hknown e rfl) hs
    simp only [deedsOf, List.forall_mem_map] at hok ⊢
    obtain ⟨hall, hlast⟩ := executed_keeps hdeed hseen hok
    refine ⟨hall, fun s' m' hc => ?_⟩
    obtain ⟨r, hp, rfl⟩ := performFor_of_call_take hc
    exact hlast r hp

/-- What observing, sweeping and every deed keep holds before every deed of a run, and behind it. -/
theorem deeds_keep
    (hdeed : ∀ {now : Millis} {s : Linked β} {d : Deed}, ok d → I s → I (s.carryOut T now d).2)
    (hobserve : ∀ {now : Millis} {s : Linked β} {e : Event}, known e → I s →
      I { s with engine := (s.engine.observe now e).2.1 })
    (hsweep : ∀ {now : Millis} {s : Linked β}, I s → I { s with engine := (s.engine.sweep now).2 })
    {s : Linked β} {m : σ} {cs : List (Millis × Call)} (hs : I s)
    (hknown : ∀ now e, (now, .take e) ∈ cs → known e)
    (hok : ∀ p ∈ deeds T h bound s m cs, ok p.2.2) :
    (∀ p ∈ deeds T h bound s m cs, I p.2.1) ∧
    ∀ s' m', calls T h bound s m cs = some (s', m') → I s' := by
  induction cs generalizing s m with
  | nil => exact ⟨by simp [deeds], by rintro s' m' ⟨⟩; exact hs⟩
  | cons c rest ih =>
    obtain ⟨now, c⟩ := c
    simp only [deeds, List.forall_mem_append, List.forall_mem_map] at hok ⊢
    obtain ⟨hall, hlast⟩ := call_keeps hdeed hobserve hsweep hs
      (fun e he => hknown now e (he ▸ List.mem_cons_self)) hok.1
    rw [calls]
    cases hc : call T h bound now s m c with
    | none => exact ⟨⟨hall, by simp⟩, by rintro s' m' ⟨⟩⟩
    | some r =>
      simp only [hc] at hok ⊢
      obtain ⟨hrest, hend⟩ := ih (hlast r.1 r.2 hc)
        (fun now e he => hknown now e (List.mem_cons_of_mem _ he)) hok.2
      exact ⟨⟨hall, hrest⟩, hend⟩

end Invariants

/-! ### Events of a run -/

theorem Action.deed_eq_event {a : Action} {id : DialogueId} {t : Transition}
    (h : a.deed = .event id t) : t = .complete ∨ t = .cancel := by
  cases a <;> simp [Action.deed] at h <;> simp [← h.2]

/-- The owner and the application of an engine only complete and cancel. -/
theorem eq_of_event_mem_deeds {T : Transport β} {h : Handler σ} {bound : Nat} {s : Linked β} {m : σ}
    {cs : List (Millis × Call)} {now : Millis} {s' : Linked β} {id : DialogueId} {t : Transition}
    (hd : (now, s', .event id t) ∈ deeds T h bound s m cs) : t = .complete ∨ t = .cancel := by
  induction cs generalizing s m with
  | nil => simp [deeds] at hd
  | cons c rest ih =>
    obtain ⟨now', c⟩ := c
    rw [deeds, List.mem_append] at hd
    rcases hd with hd | hd
    · obtain ⟨p, hp, he⟩ := List.mem_map.1 hd
      cases he
      cases c with
      | act a =>
        have ha : a.deed = .event id t := by
          simpa [deedsOf, eq_comm] using congrArg Prod.snd (List.mem_singleton.1 hp)
        exact Action.deed_eq_event ha
      | greet peer content => simp [deedsOf] at hp
      | sweep => simp [deedsOf] at hp
      | take e =>
        obtain ⟨⟨_, a⟩, -, ha⟩ := List.mem_map.1 hp
        exact Action.deed_eq_event (congrArg Prod.snd ha)
    · split at hd
      · exact ih hd
      · simp at hd

/-! ### What the transport sees -/

end Linked

/-- A transport that lists the messages handed to it, whether it takes or refuses them. -/
def Transport.watched {β : Type} (T : Transport β) : Transport (List Outgoing × β) :=
  ⟨fun (seen, link) request =>
    let (result, link) := T.submit link request
    match request with
    | .send m => (result, seen ++ [m], link)
    | _ => (result, seen, link)⟩

namespace Linked

/-- A deed hands exactly its message to the transport. -/
theorem seen_carryOut (T : Transport β) (now : Millis) (s : Linked (List Outgoing × β)) (d : Deed) :
    (s.carryOut T.watched now d).2.link.1 =
      s.link.1 ++ (s.engine.handover? now d).toList.map (·.1) := by
  have htransmit : ∀ {s s' : Linked (List Outgoing × β)} {m r},
      s.transmit T.watched m = (r, s') → s'.link.1 = s.link.1 ++ [m] :=
    fun h => congrArg (·.2.link.1) h.symm
  cases d with
  | opening peer body =>
    simp only [carryOut, done, openDialogue, Engine.handover?]
    rcases s.engine.opening now peer body with ⟨f | m, engine⟩
    · simp
    · simp only
      split <;> (next ht => have hm := htransmit ht; exact hm)
  | answer id body =>
    simp only [carryOut, reply, Engine.handover?]
    cases s.engine.answering now id body with
    | error f => simp [Except.toOption]
    | ok r => rfl
  | event id t =>
    simp only [carryOut, done, apply, Engine.handover?]
    cases s.engine.apply id t now <;> simp

variable {T : Transport β} {h : Handler σ} {bound : Nat} {s : Linked (List Outgoing × β)} {m : σ}

/-- Behind the actions of an application, the transport has seen the messages of those executed. -/
theorem seen_performFor {now : Millis} {actions : List Action} {r : Outcome (List Outgoing × β) σ}
    (hr : performFor T.watched h now bound s m actions = some r) :
    r.2.1.link.1 = s.link.1 ++ (executed T.watched h now bound s m actions).flatMap fun p =>
      (p.1.engine.handover? now p.2.deed).toList.map (·.1) := by
  induction bound generalizing s m actions with
  | zero =>
    cases actions with
    | nil => cases hr; simp [executed]
    | cons a rest => cases hr
  | succ bound ih =>
    cases actions with
    | nil => cases hr; simp [executed]
    | cons a rest =>
      have hseen := execute_eq T.watched now s a ▸ seen_carryOut T now s a.deed
      simp only [performFor, executed, List.flatMap_cons] at hr ⊢
      rw [← List.append_assoc, ← hseen]
      rcases he : s.execute T.watched now a with ⟨f | ⟨⟩, s'⟩ <;> simp only [he] at hr ⊢
      · by_cases hf : f.isFatal
        · simp only [hf, if_true] at hr ⊢
          cases hr
          simp
        · simp only [hf, Bool.false_eq_true, if_false] at hr ⊢
          exact ih hr
      · exact ih hr

/-- Behind a run, the transport has seen the messages that the run handed over, in their order. -/
theorem seen_calls {cs : List (Millis × Call)} {s' : Linked (List Outgoing × β)} {m' : σ}
    (hr : calls T.watched h bound s m cs = some (s', m')) :
    s'.link.1 = s.link.1 ++ (handed T.watched h bound s m cs).map (·.1) := by
  induction cs generalizing s m with
  | nil => cases hr; simp [handed, deeds]
  | cons c rest ih =>
    obtain ⟨now, c⟩ := c
    rw [calls] at hr
    cases hc : call T.watched h bound now s m c with
    | none => rw [hc] at hr; cases hr
    | some r =>
      obtain ⟨s₁, m₁⟩ := r
      rw [hc] at hr
      have hone : s₁.link.1 = s.link.1 ++ (deedsOf T.watched h bound now s m c).flatMap fun p =>
          (p.1.engine.handover? now p.2).toList.map (·.1) := by
        cases c with
        | act a =>
          cases hc
          rw [execute_eq, seen_carryOut]
          simp [deedsOf]
        | greet peer content =>
          cases hc
          exact (seen_carryOut T now s (.opening peer (.message content))).trans (by simp [deedsOf])
        | sweep => cases hc; simp [deedsOf]
        | take e =>
          obtain ⟨r, hp, rfl⟩ := performFor_of_call_take hc
          exact (seen_performFor hp).trans (by simp [deedsOf, List.flatMap_map])
      rw [ih hr, hone, List.append_assoc]
      congr 1
      simp only [handed, deeds, hc, List.flatMap_append, List.map_append, List.flatMap_map,
        List.map_flatMap]

end Linked

end Negotiation
