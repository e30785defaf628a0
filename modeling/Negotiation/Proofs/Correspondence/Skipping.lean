import Negotiation.Proofs.Agent.Roles
import Negotiation.Proofs.Correspondence.Mirror

/-!
What is passed over. The two sides number their steps from one counter, of which each has a copy; so
of two messages that cross each is refused where it arrives, and a later one may fit again. The number
of a side's last step tells its state (`course`), and a side's letters catch up with it (`Reaches`).
Main statement (`skips_only_crossed`): when a side accepts a message, all that was sent before it has
been taken, in its order, and what of it was refused are messages of a free conversation that crossed
one of the side's own.
-/

namespace Negotiation

/-! ### States by number -/

namespace State

/-- The state of one side behind `n` steps, unless it is closed, in a dialogue that begins with a call or
with a message. -/
def course : Step → Role → Nat → State
  | _, _, 0 => .idle
  | .cfp, .initiator, 1 => .cfpSent
  | .cfp, .responder, 1 => .cfpReceived
  | .cfp, .initiator, 2 => .proposalReceived
  | .cfp, .responder, 2 => .proposalSent
  | .cfp, _, _ + 3 => .accepted
  | _, _, _ + 1 => .messaging

variable {opening step step' : Step} {r : Role} {n : Nat} {s s' : State}

/-- The other side is in the mirror image of the state. -/
theorem course_other (opening : Step) (r : Role) (n : Nat) :
    course opening r.other n = (course opening r n).mirror := by
  rcases n with _ | _ | _ | n <;> cases opening <;> cases r <;> rfl

/-- Late in a dialogue the number of steps does not matter. -/
theorem course_late (opening : Step) (r : Role) {n n' : Nat} (h : 3 ≤ n) (h' : 3 ≤ n') :
    course opening r n = course opening r n' := by
  obtain ⟨n, rfl⟩ := Nat.exists_eq_add_of_le' h
  obtain ⟨n', rfl⟩ := Nat.exists_eq_add_of_le' h'
  cases opening <;> cases r <;> rfl

/-- What is sent keeps to the course, but for a decline, which ends the dialogue. -/
theorem course_next (hn : n ≠ 0) (h : (course opening r n).next? (.send step) = some s) :
    step = .decline ∧ s = .closed .declined ∨ step ≠ .decline ∧ s = course opening r (n + 1) := by
  rcases n with _ | _ | _ | n
  · exact absurd rfl hn
  all_goals
    cases opening <;> cases r <;> cases step <;>
      simp [course, next?, afterStep?, Transition.send] at h ⊢ <;> exact h.symm

/-- What both sides may send behind the same steps, without ending the dialogue, are messages. -/
theorem course_cross (hn : n ≠ 0) (h : (course opening r n).next? (.send step) = some s)
    (h' : (course opening r.other n).next? (.send step') = some s') (hd : step ≠ .decline)
    (hd' : step' ≠ .decline) : step = .message := by
  rcases n with _ | _ | _ | n
  · exact absurd rfl hn
  all_goals
    cases opening <;> cases r <;> cases step <;> cases step' <;>
      simp [course, next?, afterStep?, Transition.send, Role.other] at h h' hd hd' ⊢

end State

open State (course)

/-! ### Messages of a dialogue -/

/-- A message that one side may send behind the step that it answers, in a dialogue that begins with
`opening`: the first, one that keeps to the course, or a decline. -/
structure Message.Legal (opening : Step) (r : Role) (m : Message) : Prop where
  answer : m.answer = AnswerId.next m.target
  first : m.target = 0 → r = .initiator
  course : (course opening r m.target.toNat).next? (.send m.body.step) =
      some (course opening r m.answer.toNat) ∧ m.body.step ≠ .decline ∨
    (course opening r m.target.toNat).next? (.send m.body.step) = some (.closed .declined) ∧
      m.body.step = .decline

namespace Message.Legal

variable {opening : Step} {r : Role} {m own : Message} {s : State}

/-- Behind a step of its own or of the other, a side sends what is legal. -/
theorem of_sent (ht : m.target ≠ 0) (ha : m.answer = AnswerId.next m.target)
    (hs : (State.course opening r m.target.toNat).next? (.send m.body.step) = some s) :
    m.Legal opening r ∧ (m.body.step ≠ .decline ∧ s = State.course opening r m.answer.toNat ∨
      m.body.step = .decline ∧ s = .closed .declined) := by
  have ht' : m.target.toNat ≠ 0 := fun h => ht (UInt32.toNat_inj.1 h)
  have hanswer : State.course opening r m.answer.toNat = State.course opening r (m.target.toNat + 1) := by
    have hlt := m.target.toNat_lt
    rw [ha, AnswerId.toNat_next]
    by_cases hlate : m.target.toNat + 1 ≤ 0xFFFFFFFF
    · rw [Nat.min_eq_left hlate]
    · exact State.course_late opening r (by omega) (by omega)
  rcases State.course_next ht' hs with ⟨hd, rfl⟩ | ⟨hd, rfl⟩
  · exact ⟨⟨ha, fun h => absurd h ht, .inr ⟨hs, hd⟩⟩, .inr ⟨hd, rfl⟩⟩
  · exact ⟨⟨ha, fun h => absurd h ht, .inl ⟨hanswer ▸ hs, hd⟩⟩, .inl ⟨hd, hanswer.symm⟩⟩

/-- The first message is legal. -/
theorem of_first (ha : m.answer = 1) (ht : m.target = 0)
    (hs : State.idle.next? (.send m.body.step) = some s) :
    m.Legal m.body.step .initiator ∧ s = State.course m.body.step .initiator 1 := by
  have hcourse : s = State.course m.body.step .initiator 1 ∧ m.body.step ≠ .decline := by
    revert hs
    cases m.body.step <;> simp [State.next?, State.afterStep?, Transition.send, State.course] <;>
      exact Eq.symm
  refine ⟨⟨by rw [ha, ht]; rfl, fun _ => rfl, .inl ⟨?_, hcourse.2⟩⟩, hcourse.1⟩
  rw [ht, ha]
  exact hcourse.1 ▸ hs

/-- What one side may send the other may receive, in the state behind the same steps, and then it is
again in the state that the steps tell. -/
theorem received (h : m.Legal opening r.other) :
    ∃ s, (State.course opening r m.target.toNat).next? (.receive m.body.step) = some s ∧
      (s.isClosed ∨ s = State.course opening r m.answer.toNat) := by
  have hmirror : ∀ u, (State.course opening r.other m.target.toNat).next? (.send m.body.step) = some u →
      (State.course opening r m.target.toNat).next? (.receive m.body.step) = some u.mirror := by
    intro u hu
    have hsym := State.next?_mirror (State.course opening r.other m.target.toNat) m.body.step .outbound
    rw [← State.course_other, Parley.other_other] at hsym
    exact hsym.trans (congrArg (Option.map State.mirror) hu)
  rcases h.course with ⟨hs, -⟩ | ⟨hs, -⟩
  · refine ⟨_, hmirror _ hs, .inr ?_⟩
    rw [← State.course_other, Parley.other_other]
  · exact ⟨_, hmirror _ hs, .inl rfl⟩

/-- Two messages that answer the same step and do not end the dialogue are of a free conversation. -/
theorem cross (h : m.Legal opening r.other) (hown : own.Legal opening r) (ht : own.target = m.target)
    (hd : m.body.step ≠ .decline) (hd' : own.body.step ≠ .decline) : m.body.step = .message := by
  have hzero : m.target ≠ 0 := fun hz => by
    have hr := hown.first (ht.trans hz)
    have ho := h.first hz
    rw [hr] at ho
    cases ho
  obtain ⟨hs, -⟩ := h.course.resolve_right fun hr => hd hr.2
  obtain ⟨hs', -⟩ := hown.course.resolve_right fun hr => hd' hr.2
  rw [ht, ← Parley.other_other r] at hs'
  exact State.course_cross (fun h => hzero (UInt32.toNat_inj.1 h)) hs hs' hd hd'

theorem answer_ne_zero (h : m.Legal opening r) : m.answer ≠ 0 := h.answer ▸ AnswerId.next_ne_zero _

theorem toNat_answer (h : m.Legal opening r) : m.answer.toNat = min (m.target.toNat + 1) 0xFFFFFFFF :=
  h.answer ▸ AnswerId.toNat_next _

/-- Between what a message answers and its own number there is no other. -/
theorem eq_answer {n : AnswerId} (h : m.Legal opening r) (hle : n ≤ m.answer) (hn : ¬ n ≤ m.target) :
    m.answer = n := by
  have hnext := h.toNat_answer
  rw [UInt32.le_iff_toNat_le] at hle hn
  exact UInt32.toNat_inj.1 (by omega)

end Message.Legal

/-! ### Letters that catch up -/

/-- A side behind `a` steps that takes some letters has, when it takes each of them, what it answers
behind it, and behind them all comes to `b` steps at least. -/
def Reaches (b : Nat) : Nat → List Message → Prop
  | a, [] => b ≤ a
  | a, m :: rest => m.target.toNat ≤ a ∧ Reaches b (max a m.answer.toNat) rest

section Reaching

variable {a a' b b' : Nat} {ms : List Message} {m : Message}

theorem Reaches.mono (h : Reaches b a ms) (ha : a ≤ a') : Reaches b a' ms := by
  induction ms generalizing a a' with
  | nil => exact Nat.le_trans h ha
  | cons m ms ih => exact ⟨Nat.le_trans h.1 ha, ih h.2 (by omega)⟩

theorem Reaches.of_le (h : Reaches b a ms) (hb : b' ≤ a) : Reaches b' a ms := by
  induction ms generalizing a with
  | nil => exact hb
  | cons m ms ih => exact ⟨h.1, ih h.2 (by omega)⟩

theorem Reaches.concat (h : Reaches m.target.toNat a ms) : Reaches m.answer.toNat a (ms ++ [m]) := by
  induction ms generalizing a with
  | nil => exact ⟨h, Nat.le_max_right ..⟩
  | cons m' ms ih => exact ⟨h.1, ih h.2⟩

end Reaching

/-! ### The record of a talk -/

/-- What holds of each line with the lines before it. -/
def Moments (L : List Line) (P : List Line → Line → Prop) : Prop :=
  ∀ pre l post, L = pre ++ l :: post → P pre l

theorem moments_concat {L : List Line} {l : Line} {P : List Line → Line → Prop} :
    Moments (L ++ [l]) P ↔ Moments L P ∧ P L l := by
  constructor
  · refine fun h => ⟨fun pre l' post he => ?_, h L l [] rfl⟩
    exact h pre l' (post ++ [l]) (by rw [he, List.append_assoc, List.cons_append])
  · rintro ⟨hL, hl⟩ pre l' post he
    rcases Correspondence.concat_eq_append_cons he with ⟨rfl, rfl⟩ | ⟨post', he⟩
    · exact hl
    · exact hL pre l' post' he

section Record

variable (r r' : Role) (L : List Line) (m : Message) (v : Except Failure Unit)

@[simp] theorem sentBy_concat_sent :
    sentBy r (L ++ [.sent r' m]) = sentBy r L ++ if r' = r then [m] else [] := by
  by_cases h : r' = r <;> simp [sentBy, h]

@[simp] theorem sentBy_concat_taken : sentBy r (L ++ [.taken r' m v]) = sentBy r L := by
  simp [sentBy]

@[simp] theorem takenBy_concat_sent : takenBy r (L ++ [.sent r' m]) = takenBy r L := by
  simp [takenBy]

@[simp] theorem takenBy_concat_taken :
    takenBy r (L ++ [.taken r' m v]) = takenBy r L ++ if r' = r then [(m, v)] else [] := by
  by_cases h : r' = r <;> simp [takenBy, h]

end Record

/-- A message is in the record of a side if it is written down, and written down at some place. -/
theorem exists_of_mem_sentBy {r : Role} {L : List Line} {m : Message} (h : m ∈ sentBy r L) :
    ∃ before after, L = before ++ .sent r m :: after := by
  obtain ⟨l, hl, hm⟩ := List.mem_filterMap.1 h
  cases l with
  | taken r' m' v => cases hm
  | sent r' m' =>
    simp only [Option.ite_none_right_eq_some, Option.some.injEq] at hm
    obtain ⟨rfl, rfl⟩ := hm
    exact List.append_of_mem hl

/-- A step that a side has sent or taken has a number. -/
def Numbered (r : Role) (L : List Line) (n : AnswerId) : Prop :=
  (∃ m ∈ sentBy r L, m.answer = n) ∨ ∃ q ∈ takenBy r L, q.1.answer = n

theorem Numbered.concat {r : Role} {L : List Line} {n : AnswerId} (h : Numbered r L n) (l : Line) :
    Numbered r (L ++ [l]) n := by
  rw [Numbered, sentBy, takenBy, List.filterMap_append, List.filterMap_append]
  exact h.imp (fun ⟨m, hm, he⟩ => ⟨m, List.mem_append_left _ hm, he⟩)
    fun ⟨q, hq, he⟩ => ⟨q, List.mem_append_left _ hq, he⟩

/-- A message of a free conversation that a side refuses because it crossed one of its own: the side had
itself answered the same step, and the other had not yet taken that answer when it sent the message. -/
structure Crossed (id : DialogueId) (r : Role) (pre : List Line) (m : Message) (v : Except Failure Unit) :
    Prop where
  free : ∃ content, m.body = .message content
  refused : ∃ last, v = .error (.outOfSequence id m.answer m.target last)
  crossing : ∃ own ∈ sentBy r pre, own.answer = m.answer ∧ own.target = m.target ∧
    ∃ before after, pre = before ++ .sent r.other m :: after ∧ own ∉ (takenBy r.other before).map Prod.fst

namespace Talk

/-- The number of a side's last step; 0 when it does not hold the dialogue. -/
def last (t : Talk) (r : Role) : AnswerId := ((t.place r).map Place.last).getD 0

/-- The dialogue is over on one side. -/
def Ended (t : Talk) (r : Role) : Prop := ∃ p, t.place r = some p ∧ p.state.isClosed

/-- A side can take a message that answers a step: it is behind that step in the dialogue, or it has
heard nothing yet. -/
def Open (t : Talk) (L : List Line) (r : Role) (a : AnswerId) : Prop :=
  (∃ p, t.place r = some p ∧ ¬ p.state.isClosed ∧ p.last = a) ∨
    t.place r = none ∧ takenBy r L = [] ∧ a = 0

/-- What a side has heard that can take a message. -/
structure Heard (id : DialogueId) (t : Talk) (L : List Line) (r : Role) (a : AnswerId) : Prop where
  reaches : Reaches (t.last r.other).toNat a.toNat (t.letters r)
  taken : ∀ q ∈ takenBy r L, q.1.answer ≤ a
  gapless : ∀ n : AnswerId, n ≠ 0 → n ≤ a → Numbered r L n
  excused : a ≠ 0xFFFFFFFF → (t.letters r = [] ∧ t.Ended r.other) ∨
    Moments L fun pre l => ∀ m v, l = .taken r m v → v = .ok () ∨ Crossed id r pre m v

/-- The talk and its record in a dialogue that begins with `opening`. -/
structure Sound (opening : Step) (id : DialogueId) (t : Talk) (L : List Line) : Prop where
  /-- What a side has sent was taken, or is on its way, in order. -/
  conserved : ∀ r, sentBy r.other L = (takenBy r L).map Prod.fst ++ t.letters r
  along : ∀ r p, t.place r = some p →
    p.last ≠ 0 ∧ (p.state.isClosed ∨ p.state = course opening r p.last.toNat)
  legal : ∀ r, ∀ m ∈ sentBy r L,
    m.Legal opening r ∧ m.answer ≤ t.last r ∧ (m.body.step = .decline → t.Ended r)
  ordered : ∀ r, (sentBy r L).Pairwise fun m m' => m.answer ≤ m'.target ∧ m.body.step ≠ .decline
  heard : ∀ r a, t.Open L r a → Heard id t L r a
  earlier : Moments L fun pre l => ∀ r m, l = .sent r m → ∀ q ∈ takenBy r pre, q.1.answer ≤ m.target

variable {opening : Step} {id : DialogueId} {full : Role → Prop} {t t' : Talk} {L : List Line}
  {e : Correspondence.Event} {r : Role} {a : AnswerId} {m : Message}

theorem Open.not_ended (h : t.Open L r a) : ¬ t.Ended r := by
  rintro ⟨p, hp, hclosed⟩
  rcases h with ⟨p', hp', hopen, -⟩ | ⟨hnone, -, -⟩
  · obtain rfl := Option.some.inj (hp.symm.trans hp')
    exact hopen hclosed
  · rw [hp] at hnone
    cases hnone

theorem Open.last_eq (h : t.Open L r a) : t.last r = a := by
  rcases h with ⟨p, hp, -, rfl⟩ | ⟨hnone, -, rfl⟩
  · rw [last, hp]
    rfl
  · rw [last, hnone]
    rfl

theorem not_closed_of_step {s s' : State} {step : Step} {dir : Direction}
    (h : s.next? (.step step dir) = some s') : ¬ s.isClosed := by
  cases s <;> simp [State.isClosed, State.next?] at h ⊢

/-- A side that sends is open. -/
theorem open_of_place {p : Place} {s : State} {step : Step} {dir : Direction} (hp : t.place r = some p)
    (hs : p.state.next? (.step step dir) = some s) : t.Open L r p.last :=
  .inl ⟨p, hp, not_closed_of_step hs, rfl⟩

/-- A side that takes nothing has heard what it had, if its letters still catch up with the other. -/
theorem Heard.frame {l : Line} (h : Heard id t L r a) (htaken : takenBy r (L ++ [l]) = takenBy r L)
    (hl : ∀ m v, l ≠ .taken r m v)
    (hreaches : Reaches (t'.last r.other).toNat a.toNat (t'.letters r))
    (hdone : t.letters r = [] → t.Ended r.other → t'.letters r = [] ∧ t'.Ended r.other) :
    Heard id t' (L ++ [l]) r a := by
  refine ⟨hreaches, ?_, fun n hn hle => (h.gapless n hn hle).concat l, fun hmax => ?_⟩
  · rw [htaken]
    exact h.taken
  · refine (h.excused hmax).imp (fun hd => hdone hd.1 hd.2) fun hall => ?_
    exact moments_concat.2 ⟨hall, fun m v hm => absurd hm (hl m v)⟩

/-! ### A turn and its record -/

section Views

variable (t : Talk) (r : Role) (p : Place) (q : Option Place) (m : Message) (rest : List Message)

@[simp] theorem saying_place : (t.saying r p m).place r = some p := by simp [saying]
@[simp] theorem saying_place_other : (t.saying r p m).place r.other = t.place r.other := by simp [saying]
@[simp] theorem saying_letters : (t.saying r p m).letters r = t.letters r := by simp [saying]
@[simp] theorem saying_letters_other :
    (t.saying r p m).letters r.other = t.letters r.other ++ [m] := by simp [saying]
@[simp] theorem hearing_place : (t.hearing r q rest).place r = q := by simp [hearing]
@[simp] theorem hearing_place_other : (t.hearing r q rest).place r.other = t.place r.other := by
  simp [hearing]
@[simp] theorem hearing_letters : (t.hearing r q rest).letters r = rest := by simp [hearing]
@[simp] theorem hearing_letters_other : (t.hearing r q rest).letters r.other = t.letters r.other := by
  simp [hearing]

end Views

/-- A side sends a step: its letters are behind one more step, and so is it. -/
theorem Sound.wrote {p : Place} {s : State} (h : t.Sound opening id L) (hp : t.place r = some p)
    (hs : p.state.next? (.send m.body.step) = some s) (ha : m.answer = AnswerId.next p.last)
    (ht : m.target = p.last) :
    (t.saying r ⟨p.role, s, m.answer, m.target⟩ m).Sound opening id (L ++ [.sent r m]) := by
  set t' := t.saying r ⟨p.role, s, m.answer, m.target⟩ m with ht'
  have hopen : t.Open L r m.target := ht ▸ open_of_place hp hs
  have hheard := h.heard r _ hopen
  have hlast : t.last r = m.target := hopen.last_eq
  have hlast' : t'.last r = m.answer := by simp [last, ht']
  have hlastother : t'.last r.other = t.last r.other := by simp [last, ht']
  have hended : ¬ t.Ended r := hopen.not_ended
  have hendedother : t'.Ended r.other ↔ t.Ended r.other := by simp [Ended, ht']
  have hle : m.target ≤ m.answer := by
    rw [ha, ht]
    exact AnswerId.le_next _
  obtain ⟨hne, hstate⟩ := h.along r p hp
  have hcourse : p.state = course opening r m.target.toNat :=
    ht ▸ hstate.resolve_left (not_closed_of_step hs)
  obtain ⟨hlegal, hafter⟩ := Message.Legal.of_sent (ht ▸ hne) (ht ▸ ha) (hcourse ▸ hs)
  have hclosed : m.body.step = .decline → s.isClosed := fun hd => by
    rcases hafter with ⟨hnd, -⟩ | ⟨-, rfl⟩
    · exact absurd hd hnd
    · rfl
  constructor
  · -- conserved
    rw [Role.forall_iff r]
    have hc := h.conserved r
    have hco := h.conserved r.other
    rw [Parley.other_other] at hco
    simp [ht', hc, hco]
  · -- along
    rw [Role.forall_iff r]
    refine ⟨fun p' hp' => ?_, fun p' hp' => h.along r.other p' (by simpa [ht'] using hp')⟩
    obtain rfl : ⟨p.role, s, m.answer, m.target⟩ = p' := by simpa [ht'] using hp'
    refine ⟨hlegal.answer_ne_zero, ?_⟩
    rcases hafter with ⟨-, hs'⟩ | ⟨-, rfl⟩
    · exact .inr hs'
    · exact .inl rfl
  · -- legal
    rw [Role.forall_iff r]
    constructor
    · intro m' hm'
      rw [hlast']
      simp only [sentBy_concat_sent, if_true, List.mem_append, List.mem_singleton] at hm'
      rcases hm' with hm' | rfl
      · obtain ⟨hl, hle', hd⟩ := h.legal r m' hm'
        exact ⟨hl, UInt32.le_trans (hlast ▸ hle') hle, fun hdecline => absurd (hd hdecline) hended⟩
      · exact ⟨hlegal, UInt32.le_refl _, fun hd => ⟨_, saying_place .., hclosed hd⟩⟩
    · intro m' hm'
      rw [hlastother, hendedother]
      exact h.legal r.other m' (by simpa using hm')
  · -- ordered
    rw [Role.forall_iff r]
    constructor
    · simp only [sentBy_concat_sent, if_true]
      refine List.pairwise_append.2 ⟨h.ordered r, List.pairwise_singleton .., fun m' hm' m'' hm'' => ?_⟩
      obtain rfl := List.mem_singleton.1 hm''
      obtain ⟨-, hle', hd⟩ := h.legal r m' hm'
      exact ⟨hlast ▸ hle', fun hdecline => hended (hd hdecline)⟩
    · simpa using h.ordered r.other
  · -- heard
    rw [Role.forall_iff r]
    constructor
    · intro a hopen'
      obtain rfl : a = m.answer := hopen'.last_eq.symm.trans hlast'
      refine ⟨?_, ?_, ?_, ?_⟩
      · rw [hlastother, saying_letters]
        exact hheard.reaches.mono (UInt32.le_iff_toNat_le.1 hle)
      · intro q hq
        exact UInt32.le_trans (hheard.taken q (by simpa using hq)) hle
      · intro n hn hle'
        by_cases hold : n ≤ m.target
        · exact (hheard.gapless n hn hold).concat _
        · exact .inl ⟨m, by simp, hlegal.eq_answer hle' hold⟩
      · intro hmax
        have hmax' : m.target ≠ 0xFFFFFFFF := fun he => hmax (by rw [ha, ← ht, he]; rfl)
        rw [saying_letters, hendedother, moments_concat]
        exact (hheard.excused hmax').imp_right fun hall => ⟨hall, fun _ _ hl => by cases hl⟩
    · intro a hopen'
      have hopen₀ : t.Open L r.other a := by simpa [Open, ht'] using hopen'
      have hold := h.heard r.other a hopen₀
      refine hold.frame (by simp) (fun _ _ => by simp) ?_ fun _ hdone => ?_
      · have hreaches := hold.reaches
        rw [Parley.other_other, hlast] at hreaches
        rw [Parley.other_other, hlast', saying_letters_other]
        exact hreaches.concat
      · exact absurd (Parley.other_other r ▸ hdone) hended
  · -- earlier
    refine moments_concat.2 ⟨h.earlier, fun r' m' hl => ?_⟩
    cases hl
    exact hheard.taken

/-- A side ends the dialogue: it takes and sends nothing more. -/
theorem Sound.ended {p : Place} {s : State} (h : t.Sound opening id L) (hp : t.place r = some p)
    (hs : s.isClosed) :
    Sound opening id { t with place := Function.update t.place r (some { p with state := s }) } L := by
  set t' : Talk := { t with place := Function.update t.place r (some { p with state := s }) } with ht'
  have hplace : t'.place r = some { p with state := s } := by simp [ht']
  have hplaceother : t'.place r.other = t.place r.other := by simp [ht']
  have hlast : ∀ r', t'.last r' = t.last r' := by
    rw [Role.forall_iff r, last, last, last, last, hplace, hplaceother, hp]
    exact ⟨rfl, rfl⟩
  have hended : ∀ r', t.Ended r' → t'.Ended r' := by
    rw [Role.forall_iff r]
    exact ⟨fun _ => ⟨_, hplace, hs⟩, fun ⟨p', hp', hclosed⟩ => ⟨p', hplaceother.trans hp', hclosed⟩⟩
  refine ⟨h.conserved, ?_, ?_, h.ordered, ?_, h.earlier⟩
  · rw [Role.forall_iff r, hplace, hplaceother]
    refine ⟨?_, h.along r.other⟩
    rintro p' ⟨⟩
    exact ⟨(h.along r p hp).1, .inl hs⟩
  · intro r' m hm
    obtain ⟨hlegal, hle, hd⟩ := h.legal r' m hm
    exact ⟨hlegal, hlast r' ▸ hle, fun hdecline => hended r' (hd hdecline)⟩
  · rw [Role.forall_iff r]
    constructor
    · exact fun a hopen => absurd ⟨_, hplace, hs⟩ hopen.not_ended
    · intro a hopen
      have hold := h.heard r.other a (by rwa [Open, hplaceother] at hopen)
      refine ⟨hlast _ ▸ hold.reaches, hold.taken, hold.gapless, fun hmax => ?_⟩
      exact (hold.excused hmax).imp_left fun ⟨hl, he⟩ => ⟨hl, hended _ he⟩

/-- The first of a side's letters was sent behind all that the side has taken, and is the last of all if
it is a decline. -/
theorem Sound.head {rest : List Message} (h : t.Sound opening id L) (hl : t.letters r = m :: rest) :
    m ∈ sentBy r.other L ∧ (∀ q ∈ takenBy r L, q.1.answer ≤ m.target) ∧
      (m.body.step = .decline → rest = []) := by
  have hconserved := h.conserved r
  rw [hl] at hconserved
  have hordered := h.ordered r.other
  rw [hconserved, List.pairwise_append] at hordered
  obtain ⟨-, hrest, hbefore⟩ := hordered
  refine ⟨?_, fun q hq => ?_, fun hd => ?_⟩
  · rw [hconserved]
    exact List.mem_append_right _ List.mem_cons_self
  · exact (hbefore q.1 (List.mem_map_of_mem hq) m List.mem_cons_self).1
  · cases rest with
    | nil => rfl
    | cons m' rest =>
      exact absurd hd ((List.pairwise_cons.1 hrest).1 m' List.mem_cons_self).2

/-- A side that takes the first of its letters is open, in the state that the number tells. -/
theorem Sound.hearer {p : Place} {s : State} {rest : List Message} (h : t.Sound opening id L)
    (hl : t.letters r = m :: rest) (hp : t.place r = some p ∨ t.place r = none ∧ p = .start)
    (ht : m.target = p.last) (hs : p.state.next? (.receive m.body.step) = some s) :
    t.Open L r m.target ∧ p.state = course opening r m.target.toNat := by
  rcases hp with hp | ⟨hp, rfl⟩
  · exact ⟨ht ▸ open_of_place hp hs, ht ▸ (h.along r p hp).2.resolve_left (not_closed_of_step hs)⟩
  · -- a side that holds nothing has taken nothing: what it took would be numbered lower
    refine ⟨.inr ⟨hp, List.eq_nil_iff_forall_not_mem.2 fun q hq => ?_, ht⟩, by rw [ht]; rfl⟩
    have hq' : q.1 ∈ sentBy r.other L := by
      rw [h.conserved r]
      exact List.mem_append_left _ (List.mem_map_of_mem hq)
    have hzero := (h.head hl).2.1 q hq
    rw [ht, show Place.start.last = 0 from rfl, UInt32.le_zero_iff] at hzero
    exact (h.legal r.other q.1 hq').1.answer_ne_zero hzero

/-- A side for which a letter waits has excused what it refused. -/
theorem Heard.excuses {rest : List Message} (h : Heard id t L r a) (hl : t.letters r = m :: rest)
    (hmax : a ≠ 0xFFFFFFFF) :
    Moments L fun pre l => ∀ m v, l = .taken r m v → v = .ok () ∨ Crossed id r pre m v :=
  (h.excused hmax).resolve_left fun hdone => by
    rw [hl] at hdone
    cases hdone.1

theorem ne_last_of_lt {a b : AnswerId} (h : a < b) : a ≠ 0xFFFFFFFF := by
  rintro rfl
  have hlt := b.toNat_lt
  have hmax : (0xFFFFFFFF : UInt32).toNat = 4294967295 := rfl
  rw [UInt32.lt_iff_toNat_lt] at h
  omega

/-- A side takes a message, which was the first of its letters. -/
theorem Sound.accepted {p : Place} {s : State} {rest : List Message} (h : t.Sound opening id L)
    (hl : t.letters r = m :: rest) (hp : t.place r = some p ∨ t.place r = none ∧ p = .start)
    (ht : m.target = p.last) (ha : p.last < m.answer)
    (hs : p.state.next? (.receive m.body.step) = some s) :
    (t.hearing r (some ⟨p.role, s, m.answer, m.target⟩) rest).Sound opening id
      (L ++ [.taken r m (.ok ())]) := by
  obtain ⟨hmem, hbefore, -⟩ := h.head hl
  obtain ⟨hlegal, hle, -⟩ := h.legal r.other m hmem
  obtain ⟨hopen, hcourse⟩ := h.hearer hl hp ht hs
  have hheard := h.heard r _ hopen
  have hended : ¬ t.Ended r := hopen.not_ended
  have hafter : s.isClosed ∨ s = course opening r m.answer.toNat := by
    obtain ⟨s', hs', hafter⟩ := hlegal.received
    rw [← hcourse] at hs'
    obtain rfl := Option.some.inj (hs.symm.trans hs')
    exact hafter
  set t' := t.hearing r (some ⟨p.role, s, m.answer, m.target⟩) rest with ht'
  have hlast' : t'.last r = m.answer := by simp [last, ht']
  have hlastother : t'.last r.other = t.last r.other := by simp [last, ht']
  have hendedother : t'.Ended r.other ↔ t.Ended r.other := by simp [Ended, ht']
  have hlt : m.target < m.answer := ht ▸ ha
  constructor
  · -- conserved
    rw [Role.forall_iff r]
    have hc := h.conserved r
    have hco := h.conserved r.other
    rw [Parley.other_other] at hco
    simp [ht', hc, hco, hl]
  · -- along
    rw [Role.forall_iff r]
    refine ⟨fun p' hp' => ?_, fun p' hp' => h.along r.other p' (by simpa [ht'] using hp')⟩
    obtain rfl : ⟨p.role, s, m.answer, m.target⟩ = p' := by simpa [ht'] using hp'
    exact ⟨hlegal.answer_ne_zero, hafter⟩
  · -- legal
    rw [Role.forall_iff r]
    constructor
    · intro m' hm'
      obtain ⟨hl', hle', hd⟩ := h.legal r m' (by simpa using hm')
      rw [hlast']
      rw [hopen.last_eq] at hle'
      exact ⟨hl', UInt32.le_trans hle' (UInt32.le_of_lt hlt), fun hdecline => absurd (hd hdecline) hended⟩
    · intro m' hm'
      rw [hlastother, hendedother]
      exact h.legal r.other m' (by simpa using hm')
  · -- ordered
    intro r'
    simpa using h.ordered r'
  · -- heard
    rw [Role.forall_iff r]
    constructor
    · intro a hopen'
      obtain rfl : a = m.answer := hopen'.last_eq.symm.trans hlast'
      refine ⟨?_, ?_, ?_, ?_⟩
      · have hreaches := hheard.reaches
        rw [hl] at hreaches
        rw [hlastother, hearing_letters]
        refine hreaches.2.mono ?_
        rw [UInt32.lt_iff_toNat_lt] at hlt
        omega
      · intro q hq
        simp only [takenBy_concat_taken, if_true, List.mem_append, List.mem_singleton] at hq
        rcases hq with hq | rfl
        · exact UInt32.le_trans (hheard.taken q hq) (UInt32.le_of_lt hlt)
        · exact UInt32.le_refl _
      · intro n hn hle'
        by_cases hold : n ≤ m.target
        · exact (hheard.gapless n hn hold).concat _
        · exact .inr ⟨(m, .ok ()), by simp, hlegal.eq_answer hle' hold⟩
      · intro _
        refine .inr (moments_concat.2 ⟨hheard.excuses hl (ne_last_of_lt hlt), fun m' v hl' => ?_⟩)
        cases hl'
        exact .inl rfl
    · intro a hopen'
      have hopen₀ : t.Open L r.other a := by simpa [Open, ht'] using hopen'
      have hold := h.heard r.other a hopen₀
      refine hold.frame (by simp) (fun _ _ => by simp) ?_ fun _ hdone => ?_
      · rw [Parley.other_other, hlast', hearing_letters_other]
        refine hold.reaches.of_le ?_
        rw [← hopen₀.last_eq]
        exact UInt32.le_iff_toNat_le.1 hle
      · exact absurd (Parley.other_other r ▸ hdone) hended
  · -- earlier
    exact moments_concat.2 ⟨h.earlier, fun _ _ hl' => by cases hl'⟩

/-- A message that is refused by a side that goes on answers less than the side has, and is numbered no
higher. -/
theorem Sound.refused_below {rest : List Message} {f : Failure} {p : Place} (h : t.Sound opening id L)
    (hl : t.letters r = m :: rest) (hp : t.place r = some p) (hopen : ¬ p.state.isClosed)
    (hheld : if m.target = p.last ∧ p.last < m.answer then p.state.next? (.receive m.body.step) = none
      else f = .outOfSequence id m.answer m.target p.last) :
    m.answer ≤ p.last ∧ (p.last ≠ 0xFFFFFFFF → m.target < m.answer ∧
      f = .outOfSequence id m.answer m.target p.last) := by
  obtain ⟨hmem, -, -⟩ := h.head hl
  obtain ⟨hlegal, -, -⟩ := h.legal r.other m hmem
  have hreaches := (h.heard r p.last (.inl ⟨p, hp, hopen, rfl⟩)).reaches
  rw [hl] at hreaches
  have hnext := hlegal.toNat_answer
  have hlt := p.last.toNat_lt
  have hmax : (0xFFFFFFFF : UInt32).toNat = 4294967295 := rfl
  by_cases hfits : m.target = p.last ∧ p.last < m.answer
  · -- what fits is legal, and would have been taken
    obtain ⟨s, hs, -⟩ := hlegal.received
    rw [if_pos hfits, (h.along r p hp).2.resolve_left hopen, ← hfits.1, hs] at hheld
    cases hheld
  · rw [if_neg hfits] at hheld
    rw [UInt32.lt_iff_toNat_lt, ← UInt32.toNat_inj] at hfits
    have hbelow := hreaches.1
    refine ⟨UInt32.le_iff_toNat_le.2 (by omega), fun hne => ⟨?_, hheld⟩⟩
    rw [ne_eq, ← UInt32.toNat_inj] at hne
    rw [UInt32.lt_iff_toNat_lt]
    omega

/-- A message that a side refuses while the other goes on, and that is not at the end of the numbers,
crossed one of the side's own. -/
theorem Sound.crossed {rest : List Message} {a last : AnswerId} (h : t.Sound opening id L)
    (hl : t.letters r = m :: rest) (hopen : t.Open L r a) (hle : m.answer ≤ a) (hlt : m.target < m.answer)
    (hmax : a ≠ 0xFFFFFFFF) (hd : m.body.step ≠ .decline) :
    Crossed id r L m (.error (.outOfSequence id m.answer m.target last)) := by
  obtain ⟨hmem, hbefore, -⟩ := h.head hl
  obtain ⟨hlegal, -, -⟩ := h.legal r.other m hmem
  -- the side has a step of the number, and it is one of its own
  obtain ⟨own, hown, hanswer⟩ : ∃ own ∈ sentBy r L, own.answer = m.answer := by
    rcases (h.heard r a hopen).gapless m.answer hlegal.answer_ne_zero hle with hown | ⟨q, hq, he⟩
    · exact hown
    · exact absurd (he ▸ hbefore q hq) (UInt32.not_le.2 hlt)
  obtain ⟨hownlegal, hownle, howndecline⟩ := h.legal r own hown
  have htarget : own.target = m.target := by
    have hnext := hlegal.toNat_answer
    have hnext' := hownlegal.toNat_answer
    have hlast := a.toNat_lt
    have hmaxNat : (0xFFFFFFFF : UInt32).toNat = 4294967295 := rfl
    rw [ne_eq, ← UInt32.toNat_inj] at hmax
    rw [UInt32.le_iff_toNat_le] at hle
    rw [hanswer] at hnext'
    exact UInt32.toNat_inj.1 (by omega)
  have hnotdecline : own.body.step ≠ .decline := fun hdecline => hopen.not_ended (howndecline hdecline)
  obtain ⟨before, after, hL⟩ := exists_of_mem_sentBy hmem
  refine ⟨Body.step_eq_message.1 (hlegal.cross hownlegal htarget hd hnotdecline), ⟨last, rfl⟩, own, hown,
    hanswer, htarget, before, after, hL, fun htaken => ?_⟩
  -- what the other had taken when it sent the message is numbered no higher than what the message answers
  obtain ⟨q, hq, rfl⟩ := List.mem_map.1 htaken
  have hearlier := h.earlier before _ after hL r.other m rfl q hq
  exact absurd (hanswer ▸ hearlier) (UInt32.not_le.2 hlt)

/-- A side refuses a message, which was the first of its letters. -/
theorem Sound.refused {rest : List Message} {f : Failure} (h : t.Sound opening id L)
    (hl : t.letters r = m :: rest)
    (hheld : ∀ p, t.place r = some p →
      if m.target = p.last ∧ p.last < m.answer then p.state.next? (.receive m.body.step) = none
      else f = .outOfSequence id m.answer m.target p.last) :
    (t.hearing r (t.place r) rest).Sound opening id (L ++ [.taken r m (.error f)]) := by
  set t' := t.hearing r (t.place r) rest with ht'
  have hplace : ∀ r', t'.place r' = t.place r' := by
    rw [Role.forall_iff r]
    simp [ht']
  have hlast : ∀ r', t'.last r' = t.last r' := fun r' => by rw [last, last, hplace]
  have hended : ∀ r', t'.Ended r' ↔ t.Ended r' := fun r' => by rw [Ended, Ended, hplace]
  constructor
  · -- conserved
    rw [Role.forall_iff r]
    have hc := h.conserved r
    have hco := h.conserved r.other
    rw [Parley.other_other] at hco
    simp [ht', hc, hco, hl]
  · intro r' p hp
    exact h.along r' p (hplace r' ▸ hp)
  · intro r' m' hm'
    rw [hlast, hended]
    exact h.legal r' m' (by simpa using hm')
  · intro r'
    simpa using h.ordered r'
  · -- heard
    rw [Role.forall_iff r]
    constructor
    · intro a hopen'
      -- a side that has refused a message is open only in the dialogue
      obtain ⟨p, hp, hnot, rfl⟩ : ∃ p, t.place r = some p ∧ ¬ p.state.isClosed ∧ p.last = a := by
        rcases hopen' with ⟨p, hp, hnot, ha⟩ | ⟨-, hnone, -⟩
        · exact ⟨p, hplace r ▸ hp, hnot, ha⟩
        · simp at hnone
      have hopen : t.Open L r p.last := .inl ⟨p, hp, hnot, rfl⟩
      have hheard := h.heard r p.last hopen
      obtain ⟨hle, hbelow⟩ := h.refused_below hl hp hnot (hheld p hp)
      refine ⟨?_, ?_, ?_, ?_⟩
      · have hreaches := hheard.reaches
        rw [hl] at hreaches
        rw [hlast, hearing_letters]
        refine hreaches.2.mono ?_
        rw [UInt32.le_iff_toNat_le] at hle
        omega
      · intro q hq
        simp only [takenBy_concat_taken, if_true, List.mem_append, List.mem_singleton] at hq
        rcases hq with hq | rfl
        · exact hheard.taken q hq
        · exact hle
      · exact fun n hn hle' => (hheard.gapless n hn hle').concat _
      · intro hmax
        obtain ⟨hlt, rfl⟩ := hbelow hmax
        obtain ⟨hmem, -, hend⟩ := h.head hl
        by_cases hd : m.body.step = .decline
        · refine .inl ⟨?_, (hended _).2 ((h.legal r.other m hmem).2.2 hd)⟩
          rw [hearing_letters]
          exact hend hd
        · refine .inr (moments_concat.2 ⟨hheard.excuses hl hmax, fun m' v hl' => ?_⟩)
          cases hl'
          exact .inr (h.crossed hl hopen hle hlt hmax hd)
    · intro a hopen'
      have hopen₀ : t.Open L r.other a := by simpa [Open, ht'] using hopen'
      have hold := h.heard r.other a hopen₀
      refine hold.frame (by simp) (fun _ _ => by simp) ?_ fun hl' hdone => ?_
      · rw [hlast, hearing_letters_other]
        exact hold.reaches
      · exact ⟨(hearing_letters_other ..).trans hl', (hended _).2 hdone⟩
  · -- earlier
    exact moments_concat.2 ⟨h.earlier, fun _ _ hl' => by cases hl'⟩

/-- TURN: every turn keeps the record sound. -/
theorem Sound.turn {l : Option Line} (h : t.Sound opening id L) (ht : t.Turn id full e l t') :
    t'.Sound opening id (L ++ l.toList) := by
  cases ht with
  | still => simpa using h
  | wrote he hp hs ha ht => exact h.wrote hp hs ha ht
  | ended he hp hs => simpa using h.ended hp hs
  | accepted hl hp ht ha hs => exact h.accepted hl hp ht ha hs
  | refused hl hheld hnew => exact h.refused hl hheld

/-- Behind the first message the record is sound. -/
theorem sound_of_first {s : State} (hs : State.idle.next? (.send m.body.step) = some s) (ha : m.answer = 1)
    (ht : m.target = 0) : Sound m.body.step id
      ((⟨fun _ => none, fun _ => []⟩ : Talk).saying .initiator ⟨.initiator, s, 1, 0⟩ m)
      [.sent .initiator m] := by
  obtain ⟨hlegal, hcourse⟩ := Message.Legal.of_first ha ht hs
  constructor
  · rintro (_ | _) <;> rfl
  · rintro (_ | _) p hp
    · obtain rfl := Option.some.inj (show some _ = some p from hp)
      exact ⟨show (1 : AnswerId) ≠ 0 by decide, .inr hcourse⟩
    · cases hp
  · rintro (_ | _) m' hm'
    · obtain rfl : m' = m := by simpa [sentBy] using hm'
      refine ⟨hlegal, ha ▸ UInt32.le_refl 1, fun hd => ?_⟩
      rw [hd] at hs
      cases hs
    · simp [sentBy] at hm'
  · rintro (_ | _) <;> simp [sentBy]
  · rintro (_ | _) a hopen
    · -- the initiator, behind its own first step
      obtain rfl : a = 1 := hopen.last_eq.symm
      refine ⟨Nat.zero_le _, by simp [takenBy], fun n hn hle => .inl ⟨m, by simp [sentBy], ?_⟩,
        fun _ => .inr ?_⟩
      · rw [ha]
        rw [UInt32.le_iff_toNat_le] at hle
        have hn' : n.toNat ≠ 0 := fun h => hn (UInt32.toNat_inj.1 h)
        have h1 : (1 : UInt32).toNat = 1 := rfl
        exact UInt32.toNat_inj.1 (by omega)
      · intro pre l post he m' v hl
        subst hl
        rcases pre with _ | ⟨l', pre⟩ <;> simp at he
    · -- the responder, with the first message before it
      obtain rfl : a = 0 := hopen.last_eq.symm
      refine ⟨?_, by simp [takenBy], fun n hn hle => absurd (UInt32.le_zero_iff.1 hle) hn, fun _ => .inr ?_⟩
      · show Reaches 1 0 [m]
        exact ⟨by rw [ht]; rfl, by rw [Reaches, ha]; decide⟩
      · intro pre l post he m' v hl
        subst hl
        rcases pre with _ | ⟨l', pre⟩ <;> simp at he
  · intro pre l post he r' m' hl q hq
    rcases pre with _ | ⟨l', pre⟩
    · simp [takenBy] at hq
    · simp at he

/-- What a side accepts is the first of its letters, and it has excused what it refused before. -/
theorem Sound.accepts (h : t.Sound opening id L)
    (ht : t.Turn id full e (some (.taken r m (.ok ()))) t') :
    (∃ later, sentBy r.other L = (takenBy r L).map Prod.fst ++ m :: later) ∧
    Moments L fun pre l => ∀ p v, l = .taken r p v → v = .ok () ∨ Crossed id r pre p v := by
  generalize hl : some (Line.taken r m (.ok ())) = l at ht
  cases ht with
  | still => cases hl
  | wrote => cases hl
  | ended => cases hl
  | refused => cases hl
  | @accepted r m rest p s hletters hp ht ha hs =>
    cases hl
    have hheard := h.heard r _ (h.hearer hletters hp ht hs).1
    refine ⟨⟨rest, ?_⟩, hheard.excuses hletters (ne_last_of_lt (ht ▸ ha))⟩
    rw [h.conserved r, hletters]

end Talk

namespace Correspondence

variable {c : Correspondence} {id : DialogueId} {now : Millis}

/-- SKIPPING: two sides write to each other in a dialogue that one of them opens, act and read in any
    order, and there is room in the mailboxes. When a side accepts a message, it has taken all that the
    other sent before it, in its order; and each of them it accepted too, but for messages of a free
    conversation that were refused as out of sequence because they crossed one of its own. -/
theorem skips_only_crossed {peer : Address} {body : Body} (h : c.Opens id now peer body)
    {es : List (Millis × Event)} (hes : ∀ e ∈ es, e.2.Within id)
    (hroom : c.Roomy (first now peer body :: es)) {L post : List Line} {r : Role} {m : Message}
    (hL : c.transcript id (first now peer body :: es) = L ++ .taken r m (.ok ()) :: post) :
    (∃ later, sentBy r.other L = (takenBy r L).map Prod.fst ++ m :: later) ∧
    ∀ pre p v rest, L = pre ++ .taken r p v :: rest → v = .ok () ∨ Crossed id r pre p v := by
  set begun := first now peer body
  obtain ⟨-, m₀, s, hlines, hbody, ha, ht, hs, htalk⟩ := h.turn (hroom [] List.nil_prefix)
  obtain ⟨pre₀, e, hpre₀, rfl, hline⟩ := exists_of_transcript hL
  rcases pre₀ with _ | ⟨e₀, pre⟩
  · -- the first event writes down that a message is sent
    obtain rfl : e = begun := (List.cons_prefix_cons.1 hpre₀).1
    rw [transcript, show c.line? id begun.1 begun.2 = _ from hline] at hlines
    simp at hlines
  · obtain ⟨rfl, hpre⟩ := List.cons_prefix_cons.1 hpre₀
    have hfirst : ((c.run [begun]).talk id).Sound body.step id (c.transcript id [begun]) := by
      rw [hlines, htalk]
      exact hbody ▸ Talk.sound_of_first (hbody.symm ▸ hs) ha ht
    obtain ⟨-, hsound, ht⟩ := h.run_turns
      (I := fun pre => ((c.run (begun :: pre)).talk id).Sound body.step id (c.transcript id (begun :: pre)))
      hroom hes hfirst
      (fun pre e _ _ hsound ht => by
        rw [show c.transcript id (begun :: (pre ++ [e])) = _ from transcript_concat c id (begun :: pre) e]
        exact hsound.turn ht)
      hpre
    rw [hline] at ht
    obtain ⟨hsent, hexcused⟩ := hsound.accepts ht
    exact ⟨hsent, fun pre p v rest he => hexcused pre _ rest he p v rfl⟩

/-- Alice and Bob both say something at once, and refuse it; then Alice says something more. -/
def crossing : List (Millis × Event) :=
  [(1, .read .responder), (2, .act .initiator (.answer 1 (.message [1]))),
    (2, .act .responder (.answer 1 (.message [2]))), (3, .read .responder), (3, .read .initiator),
    (4, .act .initiator (.answer 1 (.message [3]))), (5, .read .responder)]

/-- What Alice says in the dialogue that she began with Bob. -/
def said (answer target : AnswerId) (content : Bytes) : Message :=
  Outgoing.delivered ⟨answer, 1, target, .towards (.ofKey "alice") (.ofKey "bob") true, .message content⟩
    (.ofKey "alice")

/-- A message is passed over: Bob refused what Alice said at the same time as he, and takes what she says
behind it. -/
theorem message_skipped :
    let begun := first 0 (.ofKey "bob") (.message [])
    couple.Opens 1 0 (.ofKey "bob") (.message []) ∧ (∀ e ∈ crossing, e.2.Within 1) ∧
    couple.Roomy (begun :: crossing) ∧
    ∃ L, couple.transcript 1 (begun :: crossing) = L ++ [.taken .responder (said 3 2 [3]) (.ok ())] ∧
      said 2 1 [1] ∈ sentBy .initiator L ∧ (said 2 1 [1], .ok ()) ∉ takenBy .responder L := by
  intro begun
  refine ⟨opens_couple 0 rfl, by simp [crossing, Event.Within], roomy_of_take (by decide +kernel),
    couple.transcript 1 (begun :: crossing.dropLast), by decide +kernel, by decide +kernel, by decide +kernel⟩

/-- What Bob passed over had crossed a message of his own. -/
theorem skipped_crossed :
    let L := couple.transcript 1 (first 0 (.ofKey "bob") (.message []) :: crossing)
    let f := Failure.outOfSequence 1 2 1 2
    L = (L.take 4 ++ .taken .responder (said 2 1 [1]) (.error f) :: (L.drop 5).take 2) ++
        [.taken .responder (said 3 2 [3]) (.ok ())] ∧
      Crossed 1 .responder (L.take 4) (said 2 1 [1]) (.error f) := by
  intro L f
  have hes : ∀ e ∈ crossing, e.2.Within 1 := by simp [crossing, Event.Within]
  have hL : L = (L.take 4 ++ .taken .responder (said 2 1 [1]) (.error f) :: (L.drop 5).take 2) ++
      .taken .responder (said 3 2 [3]) (.ok ()) :: [] := by decide +kernel
  obtain ⟨-, hcrossed⟩ := skips_only_crossed (opens_couple 0 rfl) hes (roomy_of_take (by decide +kernel)) hL
  exact ⟨hL, (hcrossed _ _ _ _ rfl).resolve_left (by simp)⟩

end Correspondence

end Negotiation
