import Mathlib.Data.List.Chain
import Negotiation.Proofs.Dialogue.Steps

/-!
The numbers of a dialogue. However its operations are called, and whichever of the calls fail, the
steps taken form a chain: each answers the one before it, and the numbers never go down. A message
that was taken once, or that is numbered no higher than a step taken before, is therefore refused for
ever.
-/

namespace Negotiation.Dialogue

/-- A call of one of the operations of a dialogue. -/
inductive Call where
  | receive (m : Message) (route : Route) (now : Millis)
  | send (step : Step) (home : Address) (now : Millis)
  | apply (event : Transition) (now : Millis)

/-- The numbers of a step that was received or sent. -/
structure Mark where
  direction : Direction
  answer : AnswerId
  target : AnswerId
  deriving DecidableEq

namespace Mark

/-- The number of a step and the number that it answers. -/
def numbers (k : Mark) : AnswerId × AnswerId := (k.answer, k.target)

/-- A received step has a higher number than what it answers, a sent step has the next one. -/
def Advances (k : Mark) : Prop :=
  match k.direction with
  | .inbound => k.target < k.answer
  | .outbound => k.answer = AnswerId.next k.target

theorem Advances.le {k : Mark} (h : k.Advances) : k.target ≤ k.answer := by
  obtain ⟨dir, answer, target⟩ := k
  cases dir with
  | inbound => exact UInt32.le_of_lt h
  | outbound => exact (show answer = AnswerId.next target from h) ▸ AnswerId.le_next target

end Mark

/-- A call, and the mark of the step that it takes. A call that fails leaves the dialogue alone. -/
def call (d : Dialogue) : Call → Option Mark × Dialogue
  | .receive m route now =>
    match d.receive m route now with
    | .ok d' => (some ⟨.inbound, m.answer, m.target⟩, d')
    | .error _ => (none, d)
  | .send step home now =>
    match d.send step home now with
    | .ok (stamp, d') => (some ⟨.outbound, stamp.answer, stamp.target⟩, d')
    | .error _ => (none, d)
  | .apply event now =>
    match d.apply event now with
    | .ok d' => (none, d')
    | .error _ => (none, d)

/-- The dialogue behind some calls. -/
def run (d : Dialogue) (calls : List Call) : Dialogue := calls.foldl (fun d c => (d.call c).2) d

/-- The marks of the steps that some calls take. -/
def marks : Dialogue → List Call → List Mark
  | _, [] => []
  | d, c :: cs => (d.call c).1.toList ++ marks (d.call c).2 cs

/-- The number of the last step and the number that it answers. -/
def numbers (d : Dialogue) : AnswerId × AnswerId := (d.lastAnswer, d.lastTarget)

/-- The dialogue refuses a message and stays as it is; the counterparty's is out of sequence. -/
def Refuses (d : Dialogue) (m : Message) : Prop :=
  ∀ route now, ∃ f, d.receive m route now = .error f ∧
    d.call (.receive m route now) = (none, d) ∧
    (m.origin.sameAgent d.counterparty → f = .outOfSequence d.id m.answer m.target d.lastAnswer)

/-! ### One call -/

/-- A call takes no step and keeps the numbers, or takes one that follows on the last. -/
theorem call_numbers (d : Dialogue) (c : Call) :
    ((d.call c).1 = none ∧ (d.call c).2.numbers = d.numbers) ∨
    ∃ k, (d.call c).1 = some k ∧ k.target = d.lastAnswer ∧ k.Advances ∧
      (d.call c).2.numbers = k.numbers := by
  cases c with
  | receive m route now =>
    rw [call]
    cases h : d.receive m route now with
    | error f => exact .inl ⟨rfl, rfl⟩
    | ok d' =>
      obtain ⟨⟨-, ht, ha⟩, s, -, rfl⟩ := receive_eq_ok_iff.1 h
      exact .inr ⟨_, rfl, ht, show m.target < m.answer from ht ▸ ha, rfl⟩
  | send step home now =>
    rw [call]
    cases h : d.send step home now with
    | error f => exact .inl ⟨rfl, rfl⟩
    | ok r =>
      obtain ⟨s, -, hstamp, hd⟩ := send_eq_ok_iff.1 h
      simp only [hstamp, hd]
      exact .inr ⟨_, rfl, rfl, rfl, rfl⟩
  | apply event now =>
    rw [call]
    cases h : d.apply event now with
    | error f => exact .inl ⟨rfl, rfl⟩
    | ok d' =>
      obtain ⟨s, -, rfl⟩ := apply_eq_ok_iff.1 h
      refine .inl ⟨rfl, ?_⟩
      by_cases hc : d.isClosed <;> simp [hc, numbers]

theorem lastAnswer_le_call (d : Dialogue) (c : Call) : d.lastAnswer ≤ (d.call c).2.lastAnswer := by
  rcases d.call_numbers c with ⟨-, h⟩ | ⟨k, -, ht, hk, h⟩
  · rw [show (d.call c).2.lastAnswer = d.lastAnswer from congrArg Prod.fst h]
    exact UInt32.le_refl _
  · rw [show (d.call c).2.lastAnswer = k.answer from congrArg Prod.fst h, ← ht]
    exact hk.le

theorem refuses_of_le {d : Dialogue} {m : Message} (h : m.answer ≤ d.lastAnswer) : d.Refuses m := by
  intro route now
  have hn : ¬ d.Expects m := fun he => UInt32.not_le.2 he.2.2 h
  by_cases ho : m.origin.sameAgent d.counterparty
  · have hr : d.receive m route now = .error (.outOfSequence d.id m.answer m.target d.lastAnswer) := by
      rw [receive_eq, if_neg (not_not.2 ho), if_pos hn]
    exact ⟨_, hr, by rw [call, hr], fun _ => rfl⟩
  · have hr : d.receive m route now = .error (.counterpartyMismatch d.id d.counterparty m.origin) := by
      rw [receive_eq, if_pos ho]
    exact ⟨_, hr, by rw [call, hr], fun h => absurd h ho⟩

/-! ### Runs -/

theorem run_append (d : Dialogue) (xs ys : List Call) : d.run (xs ++ ys) = (d.run xs).run ys :=
  List.foldl_append ..

theorem lastAnswer_le_run (d : Dialogue) (cs : List Call) : d.lastAnswer ≤ (d.run cs).lastAnswer := by
  induction cs generalizing d with
  | nil => exact UInt32.le_refl _
  | cons c cs ih => exact UInt32.le_trans (d.lastAnswer_le_call c) (ih (d.call c).2)

/-- The numbers before a run and those of its marks form a chain that ends in the numbers behind it. -/
theorem chain_marks (d : Dialogue) (cs : List Call) :
    (d.numbers :: (d.marks cs).map Mark.numbers).IsChain (fun a b => b.2 = a.1) ∧
    (d.run cs).numbers = ((d.marks cs).map Mark.numbers).getLastD d.numbers := by
  induction cs generalizing d with
  | nil => exact ⟨.singleton _, rfl⟩
  | cons c cs ih =>
    obtain ⟨hchain, hlast⟩ := ih (d.call c).2
    rcases d.call_numbers c with ⟨hn, h⟩ | ⟨k, hk, ht, -, h⟩
    · rw [marks, hn, Option.toList_none, List.nil_append]
      rw [h] at hchain hlast
      exact ⟨hchain, hlast⟩
    · rw [marks, hk, Option.toList_some, List.singleton_append, List.map_cons]
      rw [h] at hchain hlast
      exact ⟨.cons_cons ht hchain, by rw [List.getLastD_cons]; exact hlast⟩

theorem advances_of_mem_marks {d : Dialogue} {cs : List Call} {k : Mark} (h : k ∈ d.marks cs) :
    k.Advances := by
  induction cs generalizing d with
  | nil => exact absurd h List.not_mem_nil
  | cons c cs ih =>
    rcases List.mem_append.1 h with hc | hr
    · rcases d.call_numbers c with ⟨hn, -⟩ | ⟨k', hk, -, ha, -⟩
      · rw [hn] at hc
        exact absurd hc List.not_mem_nil
      · rw [hk, Option.toList_some, List.mem_singleton] at hc
        exact hc ▸ ha
    · exact ih hr

theorem answer_le_of_mem_marks {d : Dialogue} {cs : List Call} {k : Mark} (h : k ∈ d.marks cs) :
    k.answer ≤ (d.run cs).lastAnswer := by
  induction cs generalizing d with
  | nil => exact absurd h List.not_mem_nil
  | cons c cs ih =>
    rcases List.mem_append.1 h with hc | hr
    · rcases d.call_numbers c with ⟨hn, -⟩ | ⟨k', hk, -, -, he⟩
      · rw [hn] at hc
        exact absurd hc List.not_mem_nil
      · rw [hk, Option.toList_some, List.mem_singleton] at hc
        rw [hc, show k'.answer = (d.call c).2.lastAnswer from (congrArg Prod.fst he).symm]
        exact lastAnswer_le_run _ cs
    · exact ih hr

/-- A message numbered no higher than a step of a run is refused at the end of every longer run. -/
theorem run_refuses {d : Dialogue} {xs : List Call} {k : Mark} {m : Message} (hk : k ∈ d.marks xs)
    (hm : m.answer ≤ k.answer) (ys : List Call) : (d.run (xs ++ ys)).Refuses m := by
  apply refuses_of_le
  rw [run_append]
  exact UInt32.le_trans (UInt32.le_trans hm (answer_le_of_mem_marks hk)) (lastAnswer_le_run _ ys)

theorem mem_marks_of_receive {d d' : Dialogue} {xs : List Call} {m : Message} {route : Route}
    {now : Millis} (h : (d.run xs).receive m route now = .ok d') :
    ⟨.inbound, m.answer, m.target⟩ ∈ d.marks (xs ++ [.receive m route now]) := by
  induction xs generalizing d with
  | nil =>
    have h : d.receive m route now = .ok d' := h
    simp [marks, call, h]
  | cons c cs ih => exact List.mem_append_right _ (ih h)

/-- SEQUENCE: the steps of a run from a new dialogue form a chain from the start, each step advances,
    the dialogue's numbers are those of the last step, and they never go down. What is numbered no
    higher than an earlier step, and in particular what was received before, is refused. -/
theorem sequence_of_run (id : DialogueId) (counterparty : Address) (role : Role) (now : Millis)
    (cs : List Call) :
    let d := new id counterparty role now
    let steps := d.marks cs
    (∀ k, steps.head? = some k → k.target = 0) ∧
    steps.IsChain (fun a b => b.target = a.answer) ∧
    (∀ k ∈ steps, k.direction = .inbound → k.target < k.answer) ∧
    (∀ k ∈ steps, k.direction = .outbound →
      k.answer = if k.target = 0xFFFFFFFF then 0xFFFFFFFF else k.target + 1) ∧
    ((d.run cs).lastAnswer, (d.run cs).lastTarget) = (steps.map Mark.numbers).getLastD (0, 0) ∧
    (∀ xs ys, cs = xs ++ ys → (d.run xs).lastAnswer ≤ (d.run cs).lastAnswer) ∧
    (∀ xs ys m, cs = xs ++ ys → (∃ k ∈ d.marks xs, m.answer ≤ k.answer) → (d.run cs).Refuses m) ∧
    (∀ xs ys m route t d', cs = xs ++ .receive m route t :: ys →
      (d.run xs).receive m route t = .ok d' → (d.run cs).Refuses m) := by
  intro d steps
  obtain ⟨hchain, hlast⟩ := d.chain_marks cs
  have hadv : ∀ k ∈ steps, k.Advances := fun k hk => advances_of_mem_marks hk
  refine ⟨?_, ?_, ?_, ?_, hlast, ?_, ?_, ?_⟩
  · -- the first step
    intro k hk
    cases hs : steps with
    | nil => rw [hs] at hk; cases hk
    | cons k' ks =>
      rw [hs] at hk
      obtain rfl : k' = k := Option.some.inj hk
      rw [show d.marks cs = k' :: ks from hs] at hchain
      exact (List.isChain_cons_cons.1 hchain).1
  · exact (List.isChain_map Mark.numbers).1 hchain.tail
  · rintro ⟨dir, answer, target⟩ hk rfl
    exact hadv _ hk
  · rintro ⟨dir, answer, target⟩ hk rfl
    have h : answer = AnswerId.next target := hadv _ hk
    rw [h, AnswerId.next]
    split
    · next hmax => rw [hmax]
    · rfl
  · rintro xs ys rfl
    rw [run_append]
    exact lastAnswer_le_run _ ys
  · rintro xs ys m rfl ⟨k, hk, hm⟩
    exact run_refuses hk hm ys
  · rintro xs ys m route t d' rfl hd
    rw [← List.singleton_append, ← List.append_assoc]
    exact run_refuses (mem_marks_of_receive hd) (UInt32.le_refl _) ys

/-- A proposal that was answered is refused when it comes again. -/
theorem proposal_refused_again :
    let propose : Message :=
      { answer := 2, dialogue := 7, origin := .ofKey "bob", target := 1, body := .propose (.content []) }
    let route := propose.route (.ofKey "alice")
    ((new 7 (.ofKey "bob") .initiator 0).run [.send .cfp (.ofKey "alice") 0, .receive propose route 1,
      .send .accept (.ofKey "alice") 2]).Refuses propose := by
  intro propose route
  obtain ⟨-, -, -, -, -, -, -, hagain⟩ := sequence_of_run 7 (.ofKey "bob") .initiator 0
    [.send .cfp (.ofKey "alice") 0, .receive propose route 1, .send .accept (.ofKey "alice") 2]
  exact hagain [.send .cfp (.ofKey "alice") 0] [.send .accept (.ofKey "alice") 2] propose route 1 _ rfl rfl

end Negotiation.Dialogue
