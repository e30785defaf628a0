import Mathlib.Data.Finset.Card
import Negotiation.Proofs.Agent.Reachable
import Negotiation.Proofs.Agent.Record
import Negotiation.Proofs.SortedMap
import Negotiation.Weather.Client

/-!
Whose answers a client waits for. A client counts the stations that it calls, and takes one off for each
dialogue that it is told an answer in; it does not ask whether the dialogue is one of its own. So it decides
when its stations have answered, but for as many of them as there are other dialogues in which it was told
of an answer since. Main statement: `accepted_after_answers`.
-/

namespace Negotiation

/-- The dialogue in which some news is an answer, for a client. -/
def Notice.answered? : Notice → Option DialogueId
  | .propose d _ => some d.id
  | .decline d => some d.id
  | .timeout d => some d.id
  | .dialogueError id _ _ => some id
  | _ => none

namespace Weather.Client

variable {c : Client} {id : DialogueId} {n : Notice}

/-! ### What news does to a client -/

/-- The addresses that some actions call. -/
def peers (actions : List Action) : List Address :=
  actions.filterMap fun
    | .cfp peer _ => some peer
    | _ => none

@[simp]
theorem peers_append (l l' : List Action) : peers (l ++ l') = peers l ++ peers l' := List.filterMap_append ..

/-- The number of answers that news counts as. -/
def counts (c : Client) : Notice → Nat
  | .actionFailed (.cfp _ _) _ => 1
  | n =>
    match n.answered? with
    | some id => if c.answered.contains id then 0 else 1
    | none => 0

/-- Answers to news by which nobody is called, and by which an offer is accepted only when nothing is
outstanding. -/
structure Reacts (c : Client) (n : Notice) (r : List Action × Client) : Prop where
  calls : peers r.1 = []
  accepts : ∀ id, .accept id ∈ r.1 → r.2.outstanding = 0
  search : r.2.search = c.search
  outstanding : r.2.outstanding = c.outstanding - counts c n
  answered : ∀ id, c.answered.contains id ∨ n.answered? = some id → r.2.answered.contains id

theorem conclude_snd (c : Client) : ∃ accepted, c.conclude.2 = { c with accepted } := by
  rw [conclude]
  split
  · exact ⟨c.accepted, rfl⟩
  · split
    · exact ⟨c.accepted, rfl⟩
    · exact ⟨_, rfl⟩

theorem peers_conclude (c : Client) : peers c.conclude.1 = [] := by
  rw [conclude]
  split
  · rfl
  · split
    · rfl
    · simp [peers]

theorem outstanding_of_accept (h : .accept id ∈ c.conclude.1) : c.conclude.2.outstanding = 0 := by
  rw [conclude] at h ⊢
  split at h
  · simp at h
  · next hopen =>
    rw [if_neg hopen]
    have hzero : c.outstanding = 0 := by omega
    split <;> exact hzero

/-- A client that has counted the news decides. -/
theorem reacts_conclude {c' : Client} (hsearch : c'.search = c.search)
    (hout : c'.outstanding = c.outstanding - counts c n)
    (hans : ∀ id, c.answered.contains id ∨ n.answered? = some id → c'.answered.contains id) :
    Reacts c n c'.conclude := by
  obtain ⟨accepted, hc⟩ := c'.conclude_snd
  exact ⟨peers_conclude c', fun id h => outstanding_of_accept h, by rw [hc]; exact hsearch,
    by rw [hc]; exact hout, by rw [hc]; exact hans⟩

theorem counts_of_answered (hn : n.answered? = some id) :
    counts c n = if c.answered.contains id then 0 else 1 := by
  cases n <;> cases hn <;> rfl

/-- An answer is counted once for each dialogue. -/
theorem reacts_settle {c' : Client} (hn : n.answered? = some id) (hsearch : c'.search = c.search)
    (hout : c'.outstanding = c.outstanding) (hans : c'.answered = c.answered) :
    Reacts c n (c'.settle id) := by
  have hcounts := counts_of_answered (c := c) hn
  rw [settle, hans]
  by_cases h : c.answered.contains id
  · rw [if_pos h]
    refine reacts_conclude hsearch (by rw [hout, hcounts, if_pos h]; rfl) fun id' hid => ?_
    rw [hans]
    rcases hid with hid | hid
    · exact hid
    · exact Option.some.inj (hn.symm.trans hid) ▸ h
  · rw [if_neg h]
    refine reacts_conclude hsearch (by rw [hcounts, if_neg h]; exact congrArg (· - 1) hout) fun id' hid => ?_
    show (c.answered.insert id ()).contains id' = true
    rw [SortedMap.contains_insert, Bool.or_eq_true, decide_eq_true_eq]
    exact hid.symm.imp_left fun hid => Option.some.inj (hn.symm.trans hid)

/-- News that leaves the counts of a client as they are. -/
theorem reacts_of_same {r : List Action × Client} (hn : counts c n = 0) (ha : n.answered? = none)
    (hcalls : peers r.1 = []) (haccepts : ∀ id, .accept id ∉ r.1) (hsearch : r.2.search = c.search)
    (hout : r.2.outstanding = c.outstanding) (hans : r.2.answered = c.answered) : Reacts c n r where
  calls := hcalls
  accepts id h := absurd h (haccepts id)
  search := hsearch
  outstanding := by rw [hout, hn, Nat.sub_zero]
  answered id h := by
    rw [hans]
    exact h.resolve_right (by simp [ha])

/-- What a client does on news, other than the result of its search. -/
theorem reacts_react (hn : ∀ search agents, c.search = some search → n ≠ .searchResult search agents) :
    Reacts c n (c.react n) := by
  cases n with
  | searchResult search agents =>
    have hs : c.search ≠ some search := fun hs => hn search agents hs rfl
    rw [react, if_neg hs]
    exact reacts_of_same rfl rfl rfl (by simp) rfl rfl rfl
  | propose d p =>
    have hdecline : Reacts c (.propose d p) (.decline d.id :: (c.settle d.id).1, (c.settle d.id).2) := by
      have hs : Reacts c (.propose d p) (c.settle d.id) := reacts_settle rfl rfl rfl rfl
      exact ⟨hs.calls, fun id h => hs.accepts id (by simpa using h), hs.search, hs.outstanding, hs.answered⟩
    show Reacts c _ (c.onPropose d p)
    rw [onPropose]
    split
    · exact reacts_settle rfl rfl rfl rfl
    · exact hdecline
  | message d content =>
    show Reacts c _ (c.onMessage d content)
    rw [onMessage]
    split
    · exact reacts_of_same rfl rfl rfl (by simp) rfl rfl rfl
    · split
      · exact reacts_of_same rfl rfl rfl (by simp) rfl rfl rfl
      · split <;> exact reacts_of_same rfl rfl rfl (by simp) rfl rfl rfl
  | decline d => exact reacts_settle rfl rfl rfl rfl
  | dialogueError id origin d => exact reacts_settle rfl rfl rfl rfl
  | timeout d => exact reacts_settle rfl rfl rfl rfl
  | actionFailed action f =>
    cases action with
    | cfp peer payload =>
      exact reacts_conclude rfl rfl fun id hid => hid.resolve_right (by simp [Notice.answered?])
    | _ => exact reacts_of_same rfl rfl rfl (by simp [react]) rfl rfl rfl
  | _ => exact reacts_of_same rfl rfl rfl (by simp [react]) rfl rfl rfl

theorem react_searchResult {search : RequestId} (hs : c.search = some search) (agents : List Address) :
    c.react (.searchResult search agents) = (agents.map fun a => .cfp a (.query query),
      { c with outstanding := c.outstanding + agents.length }) := by
  rw [react, if_pos hs]

theorem ne_searchResult_of_accept (h : .accept id ∈ (c.react n).1) (search : RequestId)
    (agents : List Address) : n ≠ .searchResult search agents := by
  rintro rfl
  rw [react] at h
  split at h <;> simp at h

/-! ### Calls and answers -/

section History

variable {β : Type} (T : Transport β)

/-- The call that happens, and the dialogue it gets. -/
def call? : Happening β Client → Option (Address × Except Failure DialogueId)
  | .acted now s (.cfp peer payload) => some (peer, (s.openDialogue T now peer (.cfp payload)).1)
  | _ => none

/-- The calls among what happens. -/
def called (l : List (Happening β Client)) : List (Address × Except Failure DialogueId) :=
  l.filterMap (call? T)

/-- The dialogues that calls got. -/
def opened (l : List (Happening β Client)) : List DialogueId := (called T l).filterMap (·.2.toOption)

/-- The dialogue in which an answer is told. -/
def heard? : Happening β Client → Option DialogueId
  | .told _ n => n.answered?
  | _ => none

/-- The dialogues in which answers are told. -/
def heard (l : List (Happening β Client)) : List DialogueId := l.filterMap heard?

/-- The dialogues that wait for an answer, behind something that happens. -/
def await (w : List DialogueId) (x : Happening β Client) : List DialogueId :=
  w.filter (fun id => heard? x ≠ some id) ++ ((call? T x).bind (·.2.toOption)).toList

/-- The dialogues of calls in which no answer was told since. -/
def waiting (l : List (Happening β Client)) : List DialogueId := l.foldl (await T) []

/-- The dialogues in which answers are told and that no call got. -/
def strange (l : List (Happening β Client)) : Finset DialogueId :=
  (heard l).toFinset \ (opened T l).toFinset

variable {T} {l : List (Happening β Client)} {x : Happening β Client}

theorem called_concat (l : List (Happening β Client)) (x : Happening β Client) :
    called T (l ++ [x]) = called T l ++ (call? T x).toList := by
  rw [called, List.filterMap_append]
  cases h : call? T x <;> simp [called, h]

theorem heard_concat (l : List (Happening β Client)) (x : Happening β Client) :
    heard (l ++ [x]) = heard l ++ (heard? x).toList := by
  rw [heard, List.filterMap_append]
  cases h : heard? x <;> simp [heard, h]

theorem waiting_concat (l : List (Happening β Client)) (x : Happening β Client) :
    waiting T (l ++ [x]) = await T (waiting T l) x := List.foldl_concat ..

theorem opened_concat (l : List (Happening β Client)) (x : Happening β Client) :
    opened T (l ++ [x]) = opened T l ++ ((call? T x).bind (·.2.toOption)).toList := by
  rw [opened, called_concat, List.filterMap_append]
  cases h : call? T x with
  | none => simp [opened]
  | some c => cases hc : c.2.toOption <;> simp [opened, hc]

/-- A dialogue that a call got waits until an answer is told in it. -/
theorem mem_waiting_or_heard (h : id ∈ opened T l) : id ∈ waiting T l ∨ id ∈ heard l := by
  induction l using List.reverseRecOn with
  | nil => cases h
  | append_singleton l x ih =>
    rw [opened_concat, List.mem_append] at h
    rw [waiting_concat, heard_concat, await, List.mem_append, List.mem_append, List.mem_filter]
    rcases h with h | h
    · rcases ih h with hw | hh
      · by_cases hx : heard? x = some id
        · exact .inr (.inr (by simp [hx]))
        · exact .inl (.inl ⟨hw, by simpa using hx⟩)
      · exact .inr (.inl hh)
    · exact .inl (.inr h)

/-- What neither calls nor answers leaves all lists as they are. -/
theorem lists_concat_of_none (hc : call? T x = none) (hh : heard? x = none) :
    called T (l ++ [x]) = called T l ∧ waiting T (l ++ [x]) = waiting T l ∧
      strange T (l ++ [x]) = strange T l ∧ heard (l ++ [x]) = heard l := by
  have hheard : heard (l ++ [x]) = heard l := by
    rw [heard_concat, hh]
    exact List.append_nil _
  have hcalled : called T (l ++ [x]) = called T l := by
    rw [called_concat, hc]
    exact List.append_nil _
  refine ⟨hcalled, ?_, by rw [strange, strange, opened, opened, hcalled, hheard], hheard⟩
  rw [waiting_concat, await, hc, hh]
  simp

/-- A call adds the dialogue that it gets to those that wait, if it gets one. -/
theorem length_waiting_of_call {peer : Address} {outcome : Except Failure DialogueId}
    (hc : call? T x = some (peer, outcome)) (hh : heard? x = none) :
    (waiting T (l ++ [x])).length = (waiting T l).length + outcome.toOption.toList.length := by
  rw [waiting_concat, await, hc, hh, List.length_append]
  simp

/-- An answer in a dialogue in which none was told takes one off those that wait, or is strange. -/
theorem lists_concat_of_heard (hc : call? T x = none) (hh : heard? x = some id) :
    called T (l ++ [x]) = called T l ∧ heard (l ++ [x]) = heard l ++ [id] ∧
      (waiting T (l ++ [x])).length + (strange T l).card + (if id ∈ heard l then 0 else 1) ≤
        (waiting T l).length + (strange T (l ++ [x])).card := by
  have hcalled : called T (l ++ [x]) = called T l := by
    rw [called_concat, hc]
    exact List.append_nil _
  have hheard : heard (l ++ [x]) = heard l ++ [id] := by
    rw [heard_concat, hh]
    rfl
  have hwaiting : waiting T (l ++ [x]) = (waiting T l).filter (fun id' => id' ≠ id) := by
    rw [waiting_concat, await, hc, hh]
    simp [eq_comm]
  have hstrange : strange T (l ++ [x]) = insert id (heard l).toFinset \ (opened T l).toFinset := by
    rw [strange, opened, hcalled, hheard]
    ext id'
    simp [opened]
  have hfewer : (waiting T (l ++ [x])).length ≤ (waiting T l).length := by
    rw [hwaiting]
    exact List.length_filter_le ..
  have hmore : (strange T l).card ≤ (strange T (l ++ [x])).card := by
    rw [hstrange]
    exact Finset.card_le_card (Finset.sdiff_subset_sdiff (Finset.subset_insert ..) (le_refl _))
  refine ⟨hcalled, hheard, ?_⟩
  by_cases hold : id ∈ heard l
  · rw [if_pos hold]
    omega
  · rw [if_neg hold]
    by_cases hid : id ∈ opened T l
    · -- the answer of a call, which has waited for it
      have hless : (waiting T (l ++ [x])).length < (waiting T l).length := by
        rw [hwaiting]
        refine List.length_filter_lt_length_iff_exists.2 ⟨id, ?_, by simp⟩
        exact (mem_waiting_or_heard hid).resolve_right hold
      omega
    · have hone : (strange T (l ++ [x])).card = (strange T l).card + 1 := by
        rw [hstrange, Finset.insert_sdiff_of_notMem _ (by simpa using hid)]
        exact Finset.card_insert_of_notMem (by simp [hold])
      omega

/-! ### The count -/

variable {agents : List Address} {slack : Nat} {q : List Action}

/-- What is true of the count of a client whose search has found some agents, with what has happened
since: they are called one after the other, before any answer is told, and those that are not called or
wait for an answer are no more than are outstanding, but for answers in other dialogues. -/
structure Tally (T : Transport β) (agents : List Address) (slack : Nat) (l : List (Happening β Client))
    (c : Client) (q : List Action) : Prop where
  calling : (called T l).map (·.1) ++ peers q <+: agents
  first : peers q ≠ [] → heard l = []
  noted : ∀ id ∈ heard l, c.answered.contains id
  count : agents.length - (called T l).length + (waiting T l).length + slack ≤
    c.outstanding + (strange T l).card

/-- The result of the search starts the count. -/
theorem Tally.found {search : RequestId} (hs : c.search = some search) (hq : peers q = []) :
    Tally T agents 0 [] (c.react (.searchResult search agents)).2
      (q ++ (c.react (.searchResult search agents)).1) := by
  rw [react_searchResult hs]
  have hall : peers (q ++ agents.map fun a => .cfp a (.query query)) = agents := by
    rw [peers_append, hq]
    simp [peers]
  refine ⟨by rw [hall]; exact List.prefix_rfl, fun _ => rfl, by simp [heard], ?_⟩
  show agents.length - 0 + 0 + 0 ≤ c.outstanding + agents.length + _
  omega

/-- What neither calls nor answers changes nothing. -/
theorem Tally.passed {q' : List Action} (ht : Tally T agents slack l c q) (hc : call? T x = none)
    (hh : heard? x = none) (hq : peers q' = peers q) : Tally T agents slack (l ++ [x]) c q' := by
  obtain ⟨hcalled, hwaiting, hstrange, hheard⟩ := lists_concat_of_none (l := l) hc hh
  refine ⟨?_, ?_, ?_, ?_⟩
  · rw [hcalled, hq]
    exact ht.calling
  · rw [hq, hheard]
    exact ht.first
  · rw [hheard]
    exact ht.noted
  · rw [hcalled, hwaiting, hstrange]
    exact ht.count

/-- A call that fails counts as an answer beforehand. -/
theorem Tally.acted {now : Millis} {s : Linked β} {a : Action} {rest : List Action}
    (ht : Tally T agents 0 l c (a :: rest))
    (hslack : slack = 0 ∨ ∃ f, (s.execute T now a).1 = .error f ∧ slack = counts c (.actionFailed a f)) :
    Tally T agents slack (l ++ [.acted now s a]) c rest := by
  cases a with
  | cfp peer payload =>
    have hnone : heard l = [] := ht.first (by simp [peers])
    have hcalled := called_concat (T := T) l (.acted now s (.cfp peer payload))
    have hwaiting : (waiting T (l ++ [.acted now s (.cfp peer payload)])).length = (waiting T l).length +
        (s.openDialogue T now peer (.cfp payload)).1.toOption.toList.length := length_waiting_of_call rfl rfl
    have hheard : heard (l ++ [.acted now s (.cfp peer payload)]) = [] := by
      rw [heard_concat, hnone]
      rfl
    -- all calls are made before anything else can be told, so the dialogue was not strange before
    have hstrange : (strange T (l ++ [.acted now s (.cfp peer payload)])).card = (strange T l).card := by
      rw [strange, strange, hheard, hnone, List.toFinset_nil, Finset.empty_sdiff, Finset.empty_sdiff]
    have hpre : (called T l).map (·.1) ++ peer :: peers rest <+: agents := ht.calling
    have hlen : (called T l).length + 1 ≤ agents.length := by
      have hle := hpre.length_le
      simp only [List.length_append, List.length_map, List.length_cons] at hle
      omega
    -- the call waits for an answer, or has failed and the client will hear so
    have hone : (s.openDialogue T now peer (.cfp payload)).1.toOption.toList.length + slack ≤ 1 := by
      cases ho : (s.openDialogue T now peer (.cfp payload)).1 with
      | error f =>
        rcases hslack with rfl | ⟨f, -, rfl⟩
        · exact Nat.zero_le 1
        · exact le_refl 1
      | ok id =>
        have hzero : slack = 0 := by
          refine hslack.resolve_right ?_
          rintro ⟨f, hf, -⟩
          simp [Linked.execute, Linked.done, ho, Except.map] at hf
        rw [hzero]
        exact le_refl 1
    have hcount := ht.count
    refine ⟨?_, fun _ => hheard, fun id hid => by simp [hheard] at hid, ?_⟩
    · rw [hcalled]
      simpa [call?] using hpre
    · have hmore : (called T (l ++ [.acted now s (.cfp peer payload)])).length = (called T l).length + 1 := by
        rw [hcalled]
        exact List.length_append
      rw [hstrange, hwaiting, hmore]
      omega
  | _ =>
    have hzero : slack = 0 := by
      rcases hslack with h | ⟨f, -, h⟩
      · exact h
      · exact h
    subst hzero
    exact ht.passed rfl rfl rfl

/-- An answer in a dialogue is counted once, and is that of a call or strange. -/
theorem Tally.told (ht : Tally T agents slack l c q)
    (hn : ∀ search agents, c.search = some search → n ≠ .searchResult search agents)
    (hslack : n.answered? = none → counts c n ≤ slack) (hq : n.answered? ≠ none → peers q = []) :
    Tally T agents 0 (l ++ [.told c n]) (c.react n).2 (q ++ (c.react n).1) := by
  have hr := reacts_react hn
  have hpeers : peers (q ++ (c.react n).1) = peers q := by rw [peers_append, hr.calls, List.append_nil]
  have hcount := ht.count
  cases ha : n.answered? with
  | none =>
    obtain ⟨hcalled, hwaiting, hstrange, hheard⟩ :=
      lists_concat_of_none (T := T) (l := l) (x := .told c n) rfl ha
    have hle := hslack ha
    refine ⟨?_, ?_, ?_, ?_⟩
    · rw [hcalled, hpeers]
      exact ht.calling
    · rw [hpeers, hheard]
      exact ht.first
    · rw [hheard]
      exact fun id hid => hr.answered id (.inl (ht.noted id hid))
    · rw [hcalled, hwaiting, hstrange, hr.outstanding]
      omega
  | some id =>
    have hnil : peers q = [] := hq (by simp [ha])
    obtain ⟨hcalled, hheard, hlists⟩ := lists_concat_of_heard (T := T) (l := l) (x := .told c n) rfl ha
    have hcounts : counts c n ≤ if id ∈ heard l then 0 else 1 := by
      rw [counts_of_answered ha]
      by_cases hid : id ∈ heard l
      · rw [if_pos (ht.noted id hid)]
        exact Nat.zero_le _
      · rw [if_neg hid]
        split
        · exact Nat.zero_le 1
        · exact le_refl 1
    refine ⟨?_, fun hne => absurd hpeers (hnil ▸ hne), ?_, ?_⟩
    · rw [hcalled, hpeers]
      exact ht.calling
    · rw [hheard]
      intro id' hid
      rcases List.mem_append.1 hid with hid | hid
      · exact hr.answered id' (.inl (ht.noted id' hid))
      · exact hr.answered id' (.inr (List.mem_singleton.1 hid ▸ ha))
    · rw [hcalled, hr.outstanding]
      omega

/-! ### Runs -/

/-- The result of a search. -/
def Finds (search : RequestId) (x : Happening β Client) : Prop :=
  ∃ m agents, x = .told m (.searchResult search agents)

/-- What is true of a client with a search: nobody is called until its result, and the count is right after
the first. -/
structure Counting (T : Transport β) (search : RequestId) (slack : Nat) (l : List (Happening β Client))
    (c : Client) (q : List Action) : Prop where
  search_eq : c.search = some search
  idle : (∀ x ∈ l, ¬ Finds search x) → peers q = []
  tally : ∀ {before m agents since}, l = before ++ .told m (.searchResult search agents) :: since →
    (∀ x ∈ before ++ since, ¬ Finds search x) → Tally T agents slack since c q

variable {search : RequestId}

theorem Counting.acted {now : Millis} {s : Linked β} {a : Action} {rest : List Action}
    (hc : Counting T search 0 l c (a :: rest))
    (hslack : slack = 0 ∨ ∃ f, (s.execute T now a).1 = .error f ∧ slack = counts c (.actionFailed a f)) :
    Counting T search slack (l ++ [.acted now s a]) c rest where
  search_eq := hc.search_eq
  idle h := by
    refine List.eq_nil_of_subset_nil fun peer hp => ?_
    rw [← hc.idle fun x hx => h x (List.mem_append_left _ hx)]
    exact (List.sublist_cons_self a rest).filterMap _ |>.subset hp
  tally h hone := by
    rcases Linked.eq_of_concat_eq h with ⟨-, ⟨⟩, -⟩ | ⟨since', rfl, rfl⟩
    exact (hc.tally rfl fun x hx => hone x (by
      rcases List.mem_append.1 hx with hx | hx <;> simp [hx])).acted hslack

theorem Counting.told (hc : Counting T search slack l c q) (hslack : n.answered? = none → counts c n ≤ slack)
    (hq : n.answered? ≠ none → q = []) :
    Counting T search 0 (l ++ [.told c n]) (c.react n).2 (q ++ (c.react n).1) := by
  by_cases hfinds : ∃ agents, n = .searchResult search agents
  · obtain ⟨agents, rfl⟩ := hfinds
    have hlast : Finds search (.told c (.searchResult search agents) : Happening β Client) := ⟨c, agents, rfl⟩
    have hsearch : (c.react (.searchResult search agents)).2.search = some search := by
      rw [react_searchResult hc.search_eq]
      exact hc.search_eq
    refine ⟨hsearch, fun h => absurd hlast (h _ (by simp)), fun h hone => ?_⟩
    rcases Linked.eq_of_concat_eq h with ⟨rfl, ⟨⟩, rfl⟩ | ⟨since', rfl, rfl⟩
    · exact .found hc.search_eq (hc.idle fun x hx => hone x (List.mem_append_left _ hx))
    · exact absurd hlast (hone _ (by simp))
  · have hn : ∀ search' agents, c.search = some search' → n ≠ .searchResult search' agents := by
      rintro search' agents hs rfl
      obtain rfl : search = search' := Option.some.inj (hc.search_eq.symm.trans hs)
      exact hfinds ⟨agents, rfl⟩
    have hr := reacts_react hn
    refine ⟨hr.search.trans hc.search_eq, fun h => ?_, fun h hone => ?_⟩
    · rw [peers_append, hc.idle fun x hx => h x (List.mem_append_left _ hx), hr.calls]
      rfl
    · rcases Linked.eq_of_concat_eq h with ⟨-, hx, -⟩ | ⟨since', rfl, rfl⟩
      · cases hx
        exact absurd ⟨_, rfl⟩ hfinds
      · refine (hc.tally rfl fun x hx => hone x ?_).told hn hslack fun ha => by rw [hq ha]; rfl
        rcases List.mem_append.1 hx with hx | hx <;> simp [hx]

/-- Reports and events that are told count as much as they should. -/
theorem Counting.reported (hc : Counting T search 0 l c []) (hn : ∀ a f, n ≠ .actionFailed a f) :
    Counting T search 0 (l ++ [.told c n]) (c.react n).2 ([] ++ (c.react n).1) := by
  refine hc.told (fun ha => ?_) fun _ => rfl
  cases n with
  | actionFailed a f => exact absurd rfl (hn a f)
  | _ => cases ha <;> exact Nat.zero_le 0

/-- In every step of a run the count stays right. -/
theorem Counting.step {x y : Linked.Standing β Client} {g : List (Millis × Linked.Signal)}
    {es : List (Entry β Client)} (hc : Counting T search 0 l x.memory x.waiting)
    (hs : Linked.Step T handler x g es y) :
    Counting T search 0 (l ++ es.map (·.happening)) y.memory y.waiting := by
  cases hs with
  | done ha => exact hc.acted (.inl rfl)
  | @fatal now s s' c u a f rest ha hf =>
    have hnext : Counting T search 0 (l ++ [.acted now s a]) c rest := hc.acted (.inl rfl)
    refine ⟨hnext.search_eq, fun _ => rfl, fun hl hone => ?_⟩
    have ht := hnext.tally hl hone
    exact ⟨(List.prefix_append _ _).trans (by simpa [peers] using ht.calling), fun hne => absurd rfl hne,
      ht.noted, ht.count⟩
  | @failed now s s' c u a f rest ha hf =>
    have hnext : Counting T search (counts c (.actionFailed a f)) (l ++ [.acted now s a]) c rest :=
      hc.acted (.inr ⟨f, by rw [ha], rfl⟩)
    have htold := hnext.told (n := .actionFailed a f) (fun _ => le_refl _) fun hne => absurd rfl hne
    rwa [List.append_assoc] at htold
  | @event now s c u ev n engine verdict ho =>
    refine hc.reported fun a f hn => ?_
    have hin := s.engine.isInbound_observe now ev
    rw [ho, hn] at hin
    cases hin
  | sweep now s c u => simpa using hc
  | shutdown now s c u => simpa using hc
  | report s c d u => exact hc.reported (by simp)

end History

/-- DECIDING: in every run of an engine for a client with a search, over any transport, with any events and
    sweeps in any order and at any times: when the result of the search came once, and the client, told
    something since, asks to accept an offer, it has called the agents that were found in their order, and
    those that it has not called or in whose dialogue no answer was told since the call are no more than the
    other dialogues in which it was told of an answer since the result. So if there are none of these, it
    has called all, and each call failed or was answered. -/
theorem accepted_after_answers {β : Type} (T : Transport β) (bound : Nat) (s : Linked β) {c : Client}
    {search : RequestId} (hsearch : c.search = some search) (signals : List (Millis × Linked.Signal))
    {before since after : List (Happening β Client)} {m₀ m : Client} {agents : List Address} {n : Notice}
    (hl : Linked.history T handler bound s c signals =
      before ++ .told m₀ (.searchResult search agents) :: (since ++ .told m n :: after))
    (hone : ∀ x ∈ before ++ since, ¬ Finds search x) {id : DialogueId}
    (ha : .accept id ∈ (handler.react m n).1) :
    let l := since ++ [.told m n]
    (called T l).map (·.1) <+: agents ∧
    agents.length - (called T l).length + (waiting T l).length ≤ (strange T l).card ∧
    (strange T l = ∅ → (called T l).map (·.1) = agents ∧
      ∀ call ∈ called T l, (∃ f, call.2 = .error f) ∨ ∃ id ∈ heard l, call.2 = .ok id) := by
  intro l
  have hstart : Counting T search 0 [] c [] :=
    ⟨hsearch, fun _ => rfl, fun h => absurd h (by simp)⟩
  rw [← List.cons_append, ← List.append_assoc] at hl
  obtain ⟨_, es, y, ht, hes, hm⟩ := Linked.exists_trace_of_history_eq hl
  have hc := ht.keeps
    (K := fun past x => Counting T search 0 (past.map (·.happening)) x.memory x.waiting)
    (fun h hs => List.map_append .. ▸ h.step hs) [] hstart
  rw [List.nil_append, hes, hm] at hc
  have hlast : ∀ x ∈ before ++ l, ¬ Finds search x := by
    intro x hx
    rw [← List.append_assoc, List.mem_append] at hx
    rcases hx with hx | hx
    · exact hone x hx
    · rw [List.mem_singleton.1 hx]
      rintro ⟨m', agents', hx⟩
      cases hx
      exact ne_searchResult_of_accept ha _ _ rfl
  have hsplit : (before ++ .told m₀ (.searchResult search agents) :: since) ++ [.told m n] =
      before ++ .told m₀ (.searchResult search agents) :: l := List.append_assoc ..
  have ht : Tally T agents 0 l (handler.react m n).2 y.waiting := hc.tally hsplit hlast
  have hzero : (handler.react m n).2.outstanding = 0 :=
    (reacts_react fun search agents _ => ne_searchResult_of_accept ha search agents).accepts id ha
  have hpre : (called T l).map (·.1) <+: agents := (List.prefix_append ..).trans ht.calling
  have hcount := ht.count
  rw [hzero] at hcount
  refine ⟨hpre, by omega, fun hnone => ?_⟩
  rw [hnone, Finset.card_empty] at hcount
  refine ⟨hpre.eq_of_length_le (by rw [List.length_map]; omega), ?_⟩
  rintro ⟨peer, outcome⟩ hcall
  cases outcome with
  | error f => exact .inl ⟨f, rfl⟩
  | ok id =>
    have hopened : id ∈ opened T l := List.mem_filterMap.2 ⟨_, hcall, rfl⟩
    have hnot : waiting T l = [] := List.length_eq_zero_iff.1 (by omega)
    exact .inr ⟨id, (mem_waiting_or_heard hopened).resolve_left (by simp [hnot]), rfl⟩

/-- Carol is called in dialogue 2 and says nothing; a stranger calls the client and takes the call back, and
the offer of Bob is accepted as if she had answered. -/
theorem stranger_counted_as_station :
    let e : Engine := { home := .ofKey "alice", table := .new {} 1 }
    let mallory : Message :=
      { answer := 1, dialogue := 50, origin := .ofKey "mallory", target := 0, body := .cfp .nothing }
    let bob : Message :=
      { answer := 2, dialogue := 1, origin := .ofKey "bob", target := 1
        body := .propose (Station.proposal { price := 10 }) }
    let signals : List (Millis × Linked.Signal) :=
      [(0, .event (.searchResult 1 [.ofKey "bob", .ofKey "carol"])), (1, .event (.agent mallory)),
       (2, .event (.agent { mallory with answer := 2, target := 1, body := .decline })),
       (3, .event (.agent bob))]
    e.Reachable ∧
    ∃ k ∈ Linked.consults .recorder handler 4 ⟨e, {}⟩ { search := some 1 } [] signals,
      .accept 1 ∈ (handler.react k.memory k.news).1 ∧
      (k.engine.table.get? 2).map (fun d => (d.counterparty, d.role, d.state)) =
        some (.ofKey "carol", .initiator, .cfpSent) := by
  intro e mallory bob signals
  exact ⟨.new (show Engine.new (.ofKey "alice") {} 1 = .ok e from rfl), by decide +kernel⟩

/-- Bob offers and Carol declines; nobody else is heard of, and both were called and have answered. -/
theorem accepted_when_both_answered :
    let e : Engine := { home := .ofKey "alice", table := .new {} 1 }
    let bob : Message :=
      { answer := 2, dialogue := 1, origin := .ofKey "bob", target := 1
        body := .propose (Station.proposal { price := 10 }) }
    let carol : Message := { bob with dialogue := 2, origin := .ofKey "carol", body := .decline }
    let agents : List Address := [.ofKey "bob", .ofKey "carol"]
    let signals : List (Millis × Linked.Signal) :=
      [(0, .event (.searchResult 1 agents)), (1, .event (.agent bob)), (2, .event (.agent carol))]
    ∃ since m n after, Linked.history .recorder handler 4 ⟨e, {}⟩ { search := some 1 } signals =
        .told { search := some 1 } (.searchResult 1 agents) :: (since ++ .told m n :: after) ∧
      .accept 1 ∈ (handler.react m n).1 ∧
      (called .recorder (since ++ [.told m n])).map (·.1) = agents ∧
      ∀ call ∈ called .recorder (since ++ [.told m n]),
        (∃ f, call.2 = .error f) ∨ ∃ id ∈ heard (since ++ [.told m n]), call.2 = .ok id := by
  intro e bob carol agents signals
  let H := (Linked.history .recorder handler 4 ⟨e, {}⟩ { search := some 1 } signals).tail
  obtain ⟨m, n, after, hdrop, ha, hn⟩ : ∃ m n after, H.drop 3 = .told m n :: after ∧
      .accept 1 ∈ (handler.react m n).1 ∧ n.answered? = some 2 := by
    have hlast : (((H.drop 3).head?.bind (·.told?)).any fun k =>
        decide (.accept 1 ∈ (handler.react k.1 k.2).1 ∧ k.2.answered? = some 2)) = true := by decide +kernel
    cases hdrop : H.drop 3 with
    | nil =>
      rw [hdrop] at hlast
      cases hlast
    | cons x after =>
      rw [hdrop] at hlast
      cases x with
      | told m n => exact ⟨m, n, after, rfl, of_decide_eq_true hlast⟩
      | acted now s a => cases hlast
  have hl : Linked.history .recorder handler 4 ⟨e, {}⟩ { search := some 1 } signals =
      [] ++ .told { search := some 1 } (.searchResult 1 agents) :: (H.take 3 ++ .told m n :: after) := by
    rw [← hdrop, List.take_append_drop]
    rfl
  have hone : ∀ x ∈ [] ++ H.take 3, ¬ Finds 1 x := by
    have hnames : ∀ x ∈ H.take 3, (x.told?.any fun k => decide (k.2.name = "search_result")) = false := by
      decide +kernel
    rintro x hx ⟨m', agents', rfl⟩
    cases hnames _ hx
  have hstrange : strange .recorder (H.take 3 ++ [.told m n]) = ∅ := by
    have hknown : (heard (H.take 3) ++ [2]).toFinset \ (opened .recorder (H.take 3)).toFinset = ∅ := by
      decide +kernel
    rw [strange, opened_concat, heard_concat, heard?, hn]
    exact (congrArg (fun ids => _ \ List.toFinset ids) (List.append_nil _)).trans hknown
  obtain ⟨-, -, hboth⟩ := accepted_after_answers .recorder 4 ⟨e, {}⟩ rfl signals hl hone ha
  exact ⟨_, m, n, after, hl, ha, hboth hstrange⟩

end Weather.Client

end Negotiation
