import Negotiation.Proofs.SortedMap
import Negotiation.Proofs.Weather.Answers
import Negotiation.Proofs.Weather.Choice

/-!
The decision of a client by itself, whatever it is told. It decides at most once, when nothing is
outstanding, for the best offer that it holds; with the same answers it declines each other offer that
it holds. What it buys then is what the accepted station sends, and it buys at most once. Main statement:
`cheapest_bought_once`.
-/

namespace Negotiation.Weather.Client

variable {c c' : Client} {r : List Action × Client} {id winner : DialogueId} {offer : Offer}

/-! ### Calls -/

/-- A call of a client: a search to wait for, or news. -/
inductive Call where
  | expect (search : RequestId)
  | told (n : Notice)

/-- The dialogue of a proposal. -/
def Call.proposed? : Call → Option DialogueId
  | .told (.propose d _) => some d.id
  | _ => none

/-- The dialogues of all proposals. -/
def proposed (calls : List Call) : List DialogueId := calls.filterMap Call.proposed?

/-- Calls behind which a client decides if it can: an answer is told, or that a call was not sent. -/
def Call.Settles : Call → Prop
  | .told (.actionFailed (.cfp _ _) _) => True
  | .told n => n.answered?.isSome
  | .expect _ => False

/-- The answers to a call, and the client behind it. -/
def call (c : Client) : Call → List Action × Client
  | .expect search => ([], c.expect search)
  | .told n => c.react n

/-- The client behind some calls. -/
def run (c : Client) (calls : List Call) : Client := calls.foldl (fun c x => (c.call x).2) c

/-- All answers to some calls. -/
def actions (c : Client) : List Call → List Action
  | [] => []
  | x :: rest => (c.call x).1 ++ actions (c.call x).2 rest

/-- The result that a call brings, if it brings one. -/
def result? (c : Client) (x : Call) : Option Purchase :=
  if (c.call x).2.purchase = c.purchase then none else (c.call x).2.purchase

/-- All results that some calls bring. -/
def results (c : Client) : List Call → List Purchase
  | [] => []
  | x :: rest => (c.result? x).toList ++ results (c.call x).2 rest

/-- The dialogues in which an offer is accepted. -/
def accepts (actions : List Action) : List DialogueId :=
  actions.filterMap fun
    | .accept id => some id
    | _ => none

@[simp]
theorem accepts_append (l l' : List Action) : accepts (l ++ l') = accepts l ++ accepts l' :=
  List.filterMap_append ..

/-! ### The decision -/

/-- Answers by which a client decides for an offer: the best that it holds, when nothing is outstanding.
Each other offer that it holds is declined once. -/
structure Decides (r : List Action × Client) (winner : DialogueId) (offer : Offer) : Prop where
  accepts : accepts r.1 = [winner]
  accepted : r.2.accepted = some (winner, offer)
  held : r.2.offers.get? winner = some offer
  best : ∀ id o, r.2.offers.get? id = some o → NoWorse (winner, offer) (id, o)
  outstanding : r.2.outstanding = 0
  declines : ∀ id o, r.2.offers.get? id = some o →
    r.1.count (.decline id) = if id = winner then 0 else 1

/-- Answers by which a client decides nothing, or decides for the first time. -/
def MayDecide (c : Client) (r : List Action × Client) : Prop :=
  (accepts r.1 = [] ∧ r.2.accepted = c.accepted) ∨
    (c.accepted = none ∧ ∃ winner offer, Decides r winner offer)

theorem count_decline_others (m : SortedMap DialogueId Offer) (winner : DialogueId) {o : Offer}
    (h : m.get? id = some o) :
    ((m.keys.filter (· ≠ winner)).map Action.decline).count (.decline id) =
      if id = winner then 0 else 1 := by
  have hkey : id ∈ m.keys := SortedMap.mem_keys_iff.2 ⟨o, h⟩
  rw [List.count_map_of_injective _ _ fun a b hab => Action.decline.inj hab]
  split
  · next heq => exact List.count_eq_zero.2 (by simp [heq])
  · next hne => exact List.count_eq_one_of_mem (m.nodup_keys.filter _) (by simp [hkey, hne])

theorem mayDecide_conclude (c : Client) : MayDecide c c.conclude := by
  rw [conclude]
  split
  · exact .inl ⟨rfl, rfl⟩
  · next hopen =>
    have hnone : c.accepted = none := by simpa using (not_or.1 hopen).1
    have hzero : c.outstanding = 0 := Nat.eq_zero_of_not_pos (not_or.1 hopen).2
    by_cases hnil : c.offers.toList = []
    · rw [hnil]
      exact .inl ⟨rfl, rfl⟩
    · obtain ⟨⟨winner, offer⟩, hmem, hbest, hall⟩ := best?_spec _ hnil
      rw [hbest]
      refine .inr ⟨hnone, winner, offer, ?_, rfl, SortedMap.mem_toList_iff.1 hmem,
        fun id o ho => hall (id, o) (SortedMap.mem_toList_iff.2 ho), hzero, fun id o ho => ?_⟩
      · simp [accepts, List.filterMap_map]
      · rw [List.count_cons_of_ne (by simp)]
        exact count_decline_others c.offers winner ho

/-- An undecided client decides, if nothing is outstanding and it holds an offer. -/
theorem conclude_due {o : Offer} (hnone : c.accepted = none) (hzero : c.conclude.2.outstanding = 0)
    (ho : c.conclude.2.offers.get? id = some o) : c.conclude.2.accepted.isSome := by
  obtain ⟨accepted, hc⟩ := c.conclude_snd
  rw [hc] at hzero ho
  have hzero : c.outstanding = 0 := hzero
  have hnil : c.offers.toList ≠ [] := List.ne_nil_of_mem (SortedMap.mem_toList_iff.2 ho)
  obtain ⟨⟨winner, offer⟩, -, hbest, -⟩ := best?_spec _ hnil
  have hopen : ¬ (c.accepted.isSome ∨ 0 < c.outstanding) := by simp [hnone, hzero]
  rw [conclude, if_neg hopen, hbest]
  rfl

/-- A decline of what is not held makes no difference. -/
theorem MayDecide.decline_cons (h : MayDecide c r) (hid : r.2.offers.get? id = none) :
    MayDecide c (.decline id :: r.1, r.2) := by
  rcases h with ⟨ha, hsame⟩ | ⟨hnone, winner, offer, hd⟩
  · exact .inl ⟨ha, hsame⟩
  · refine .inr ⟨hnone, winner, offer, hd.accepts, hd.accepted, hd.held, hd.best, hd.outstanding, ?_⟩
    intro id' o ho
    have hne : id ≠ id' := by
      rintro rfl
      cases hid.symm.trans ho
    rw [List.count_cons_of_ne (by simpa using hne)]
    exact hd.declines id' o ho

/-! ### What a call does -/

/-- The result that a client takes from a message: that of the offer that it has accepted. -/
def Buys (c : Client) (x : Call) (p : Purchase) : Prop :=
  c.purchase = none ∧ ∃ d content offer m, x = .told (.message d content) ∧
    c.accepted = some (d.id, offer) ∧ Measurement.ofBytes? content = some m ∧
    p = ⟨offer.station.text, offer.price, c.offers.size, m⟩

/-- What a call can make of a client: it decides nothing, or for the first time; an offer that is held was
held before, or is that of a proposal; and the result stays, or is bought for the first time. -/
structure Course (c : Client) (x : Call) (r : List Action × Client) : Prop where
  decides : (∀ id, x.proposed? = some id → c.offers.get? id = none) → MayDecide c r
  held : ∀ id o, r.2.offers.get? id = some o →
    (∃ o', c.offers.get? id = some o') ∨ x.proposed? = some id
  bought : r.2.purchase = c.purchase ∨ ∃ p, r.2.purchase = some p ∧ Buys c x p

variable {x : Call}

theorem course_of_same (ha : accepts r.1 = []) (hacc : r.2.accepted = c.accepted)
    (hoffers : r.2.offers = c.offers) (hp : r.2.purchase = c.purchase) : Course c x r :=
  ⟨fun _ => .inl ⟨ha, hacc⟩, fun _ o ho => .inl ⟨o, hoffers ▸ ho⟩, .inl hp⟩

theorem course_conclude (hacc : c'.accepted = c.accepted) (hp : c'.purchase = c.purchase)
    (hheld : ∀ id o, c'.offers.get? id = some o →
      (∃ o', c.offers.get? id = some o') ∨ x.proposed? = some id) : Course c x c'.conclude := by
  obtain ⟨accepted, hc⟩ := c'.conclude_snd
  refine ⟨fun _ => ?_, by rwa [hc], .inl (by rwa [hc])⟩
  have hd := mayDecide_conclude c'
  rwa [MayDecide, hacc] at hd

/-- An answer that is counted leads to a decision of the same offers. -/
theorem settle_eq (c : Client) (id : DialogueId) : ∃ answered outstanding,
    c.settle id = conclude { c with answered, outstanding } := by
  rw [settle]
  split
  · exact ⟨_, _, rfl⟩
  · exact ⟨_, _, rfl⟩

theorem course_settle (c' : Client) (hacc : c'.accepted = c.accepted) (hp : c'.purchase = c.purchase)
    (hheld : ∀ id o, c'.offers.get? id = some o →
      (∃ o', c.offers.get? id = some o') ∨ x.proposed? = some id) (id : DialogueId) :
    Course c x (c'.settle id) := by
  obtain ⟨answered, outstanding, hc⟩ := c'.settle_eq id
  rw [hc]
  exact course_conclude hacc hp hheld

theorem course_withdraw (id : DialogueId) : Course c x (c.withdraw id) := by
  refine course_settle (c := c) { c with offers := c.offers.erase id } rfl rfl (fun id' o ho => ?_) id
  rw [SortedMap.get?_erase] at ho
  split at ho
  · cases ho
  · exact .inl ⟨o, ho⟩

theorem course_propose (c : Client) (d : Dialogue) (p : Proposal) :
    Course c (.told (.propose d p)) (c.onPropose d p) := by
  rw [onPropose]
  split
  · next price _ _ =>
    refine course_settle (c := c) { c with offers := c.offers.insert d.id ⟨d.counterparty, price⟩ } rfl rfl
      (fun id o ho => ?_) d.id
    rw [SortedMap.get?_insert] at ho
    split at ho
    · next hid => exact .inr (congrArg some hid)
    · exact .inl ⟨o, ho⟩
  · have hs : Course c (.told (.propose d p)) (c.settle d.id) :=
      course_settle c rfl rfl (fun _ o ho => .inl ⟨o, ho⟩) d.id
    refine ⟨fun hnew => (hs.decides hnew).decline_cons ?_, hs.held, hs.bought⟩
    obtain ⟨answered, outstanding, hc⟩ := c.settle_eq d.id
    obtain ⟨accepted, ha⟩ := conclude_snd { c with answered, outstanding }
    rw [hc, ha]
    exact hnew d.id rfl

theorem course_message (c : Client) (d : Dialogue) (content : Bytes) :
    Course c (.told (.message d content)) (c.onMessage d content) := by
  rw [onMessage]
  split
  · exact course_of_same rfl rfl rfl rfl
  · next winner offer hacc =>
    split
    · exact course_of_same rfl rfl rfl rfl
    · next hid =>
      obtain rfl : winner = d.id := not_not.1 hid
      split
      · exact course_of_same rfl rfl rfl rfl
      · next m hm =>
        refine ⟨fun _ => .inl ⟨rfl, rfl⟩, fun _ o ho => .inl ⟨o, ho⟩, ?_⟩
        cases hp : c.purchase with
        | some p => exact .inl rfl
        | none => exact .inr ⟨_, rfl, hp, d, content, offer, m, rfl, hacc, hm, rfl⟩

theorem course_call (c : Client) (x : Call) : Course c x (c.call x) := by
  cases x with
  | expect search => exact course_of_same rfl rfl rfl rfl
  | told n =>
    show Course c _ (c.react n)
    cases n with
    | searchResult search agents =>
      rw [react]
      split
      · exact course_of_same (by simp [accepts, List.filterMap_map]) rfl rfl rfl
      · exact course_of_same rfl rfl rfl rfl
    | propose d p => exact course_propose c d p
    | message d content => exact course_message c d content
    | decline d => exact course_settle c rfl rfl (fun _ o ho => .inl ⟨o, ho⟩) d.id
    | dialogueError id origin d => exact course_withdraw id
    | timeout d => exact course_withdraw d.id
    | actionFailed action f =>
      cases action with
      | cfp peer payload => exact course_conclude rfl rfl fun _ o ho => .inl ⟨o, ho⟩
      | _ => exact course_of_same rfl rfl rfl rfl
    | _ => exact course_of_same rfl rfl rfl rfl

/-- Behind an answer a client is as a decision leaves it. -/
theorem call_of_settles (hx : x.Settles) :
    ∃ c' : Client, c'.accepted = c.accepted ∧ (c.call x).2 = c'.conclude.2 := by
  have hsettle : ∀ (c' : Client) (id : DialogueId), ∃ c'' : Client,
      c''.accepted = c'.accepted ∧ (c'.settle id).2 = c''.conclude.2 := fun c' id => by
    obtain ⟨answered, outstanding, hc⟩ := c'.settle_eq id
    exact ⟨{ c' with answered, outstanding }, rfl, congrArg Prod.snd hc⟩
  cases x with
  | expect search => exact hx.elim
  | told n =>
    cases n with
    | propose d p =>
      show ∃ c' : Client, c'.accepted = c.accepted ∧ (c.onPropose d p).2 = c'.conclude.2
      rw [onPropose]
      split
      · next price _ _ =>
        exact hsettle { c with offers := c.offers.insert d.id ⟨d.counterparty, price⟩ } d.id
      · exact hsettle c d.id
    | decline d => exact hsettle c d.id
    | dialogueError id origin d => exact hsettle { c with offers := c.offers.erase id } id
    | timeout d => exact hsettle { c with offers := c.offers.erase d.id } d.id
    | actionFailed action f =>
      cases action with
      | cfp peer payload => exact ⟨{ c with outstanding := c.outstanding - 1 }, rfl, rfl⟩
      | _ => cases hx
    | _ => cases hx

theorem result?_of_buys {p : Purchase} (h : Buys c x p) : c.result? x = some p := by
  obtain ⟨hnone, d, content, offer, m, rfl, hacc, hm, rfl⟩ := h
  have hcall : (c.call (.told (.message d content))).2.purchase =
      some ⟨offer.station.text, offer.price, c.offers.size, m⟩ := by
    simp [call, react, onMessage, hacc, hm, hnone]
  rw [result?, hcall, hnone, if_neg (Option.some_ne_none _)]

/-- A client that has decided decides nothing more. -/
theorem call_of_accepted (h : c.accepted = some (winner, offer)) (x : Call)
    (hnew : ∀ id, x.proposed? = some id → c.offers.get? id = none) :
    accepts (c.call x).1 = [] ∧ (c.call x).2.accepted = some (winner, offer) := by
  rcases (course_call c x).decides hnew with ⟨ha, hacc⟩ | ⟨hnone, -⟩
  · exact ⟨ha, hacc.trans h⟩
  · cases h.symm.trans hnone

/-- A proposal that comes when the client has decided is declined. -/
theorem react_propose_of_accepted (h : c.accepted = some (winner, offer)) (d : Dialogue) (p : Proposal) :
    (c.react (.propose d p)).1 = [.decline d.id] ∧ (c.react (.propose d p)).2.offers = c.offers := by
  obtain ⟨answered, outstanding, hc⟩ := c.settle_eq d.id
  have hs : c.settle d.id = ([], { c with answered, outstanding }) := by
    rw [hc, conclude, if_pos (.inl (by simp [h]))]
  have hr : c.react (.propose d p) = (.decline d.id :: (c.settle d.id).1, (c.settle d.id).2) := by
    cases hp : priceOf p <;> simp [react, onPropose, hp, h]
  rw [hr, hs]
  exact ⟨rfl, rfl⟩

/-! ### Runs -/

/-- A client before calls with proposals of different dialogues, of none of which it holds an offer. -/
structure Fresh (c : Client) (calls : List Call) : Prop where
  nodup : (proposed calls).Nodup
  free : ∀ id ∈ proposed calls, c.offers.get? id = none

theorem mem_proposed_cons {x : Call} {rest : List Call} :
    id ∈ proposed (x :: rest) ↔ x.proposed? = some id ∨ id ∈ proposed rest := by
  rw [proposed, List.filterMap_cons]
  cases x.proposed? <;> simp [proposed, eq_comm]

namespace Fresh

variable {x : Call} {rest calls before after : List Call}

theorem new (h : Fresh c (x :: rest)) : ∀ id, x.proposed? = some id → c.offers.get? id = none :=
  fun id hid => h.free id (mem_proposed_cons.2 (.inl hid))

theorem tail (h : Fresh c (x :: rest)) : Fresh (c.call x).2 rest := by
  have hnodup : (x.proposed?.toList ++ proposed rest).Nodup := by
    have hn := h.nodup
    rw [proposed, List.filterMap_cons] at hn
    cases hx : x.proposed? <;> simpa [hx, proposed] using hn
  obtain ⟨-, hrest, hapart⟩ := List.nodup_append.1 hnodup
  refine ⟨hrest, fun id hid => ?_⟩
  by_contra hheld
  obtain ⟨o, ho⟩ := Option.ne_none_iff_exists'.1 hheld
  rcases (course_call c x).held id o ho with ⟨o', ho'⟩ | hx
  · cases ho'.symm.trans (h.free id (mem_proposed_cons.2 (.inr hid)))
  · exact hapart id (by simp [hx]) id hid rfl

theorem behind (h : Fresh c (before ++ after)) : Fresh (c.run before) after := by
  induction before generalizing c with
  | nil => exact h
  | cons x before ih => exact ih h.tail

theorem left (h : Fresh c (before ++ after)) : Fresh c before := by
  have hsplit : proposed (before ++ after) = proposed before ++ proposed after := List.filterMap_append ..
  exact ⟨(List.nodup_append.1 (hsplit ▸ h.nodup)).1,
    fun id hid => h.free id (hsplit ▸ List.mem_append_left _ hid)⟩

/-- What has been decided stays. -/
theorem accepted_run (h : Fresh c calls) (hacc : c.accepted = some (winner, offer)) :
    (c.run calls).accepted = some (winner, offer) ∧ accepts (c.actions calls) = [] := by
  induction calls generalizing c with
  | nil => exact ⟨hacc, rfl⟩
  | cons x rest ih =>
    obtain ⟨ha, hacc'⟩ := call_of_accepted hacc x h.new
    obtain ⟨hrun, hactions⟩ := ih h.tail hacc'
    exact ⟨hrun, by rw [actions, accepts_append, ha, hactions]; rfl⟩

theorem length_accepts_le (h : Fresh c calls) : (accepts (c.actions calls)).length ≤ 1 := by
  induction calls generalizing c with
  | nil => exact Nat.zero_le 1
  | cons x rest ih =>
    rw [actions, accepts_append]
    rcases (course_call c x).decides h.new with ⟨ha, -⟩ | ⟨-, winner, offer, hd⟩
    · rw [ha]
      exact ih h.tail
    · rw [hd.accepts, (h.tail.accepted_run hd.accepted).2]
      exact Nat.le_refl 1

/-- A client that accepts an offer decides for it. -/
theorem decides_of_accept (h : Fresh c (x :: rest)) (ha : .accept winner ∈ (c.call x).1) :
    ∃ offer, Decides (c.call x) winner offer := by
  have hmem : winner ∈ accepts (c.call x).1 := List.mem_filterMap.2 ⟨_, ha, rfl⟩
  rcases (course_call c x).decides h.new with ⟨hnone, -⟩ | ⟨-, winner', offer, hd⟩
  · simp [hnone] at hmem
  · obtain rfl : winner = winner' := by simpa [hd.accepts] using hmem
    exact ⟨offer, hd⟩

/-- An undecided client decides behind an answer, if nothing is outstanding and it holds an offer. -/
theorem decides_of_settles (h : Fresh c (x :: rest)) (hx : x.Settles) (hnone : c.accepted = none)
    (hzero : (c.call x).2.outstanding = 0) {o : Offer} (ho : (c.call x).2.offers.get? id = some o) :
    ∃ winner offer, Decides (c.call x) winner offer := by
  rcases (course_call c x).decides h.new with ⟨-, hsame⟩ | ⟨-, hd⟩
  · obtain ⟨c', hacc, hc⟩ := call_of_settles hx
    rw [hc] at hzero ho hsame
    have hdue := conclude_due (hacc.trans hnone) hzero ho
    simp [hsame, hnone] at hdue
  · exact hd

/-- What a client has decided for it has decided for by some call. -/
theorem exists_decides (h : Fresh c calls) (hnone : c.accepted = none)
    (hacc : (c.run calls).accepted = some (winner, offer)) :
    ∃ before y after, calls = before ++ y :: after ∧ Decides ((c.run before).call y) winner offer := by
  induction calls generalizing c with
  | nil => cases hnone.symm.trans hacc
  | cons x rest ih =>
    rcases (course_call c x).decides h.new with ⟨-, hsame⟩ | ⟨-, winner', offer', hd⟩
    · obtain ⟨before, y, after, rfl, hy⟩ := ih h.tail (hsame.trans hnone) hacc
      exact ⟨x :: before, y, after, rfl, hy⟩
    · have hrun := (h.tail.accepted_run hd.accepted).1
      obtain ⟨rfl, rfl⟩ : winner' = winner ∧ offer' = offer := by simpa using hrun.symm.trans hacc
      exact ⟨[], x, rest, rfl, hd⟩

end Fresh

theorem buys_of_result {x : Call} {p : Purchase} (h : c.result? x = some p) : Buys c x p := by
  rw [result?] at h
  split at h
  · cases h
  · next hne =>
    obtain ⟨p', hp', hb⟩ := (course_call c x).bought.resolve_left hne
    exact Option.some.inj (hp'.symm.trans h) ▸ hb

theorem results_of_purchase {p : Purchase} (h : c.purchase = some p) (calls : List Call) :
    c.results calls = [] := by
  induction calls generalizing c with
  | nil => rfl
  | cons x rest ih =>
    rcases (course_call c x).bought with hsame | ⟨p', -, hnone, -⟩
    · rw [results, result?, if_pos hsame, ih (hsame.trans h)]
      rfl
    · cases h.symm.trans hnone

theorem length_results_le (c : Client) (calls : List Call) : (c.results calls).length ≤ 1 := by
  induction calls generalizing c with
  | nil => exact Nat.zero_le 1
  | cons x rest ih =>
    rw [results]
    rcases (course_call c x).bought with hsame | ⟨p, hp, hnone, -⟩
    · rw [result?, if_pos hsame]
      exact ih _
    · rw [results_of_purchase hp, List.append_nil]
      exact Option.length_toList_le

/-- ONE DECISION: whatever a new client is told, with at most one proposal of each dialogue, it accepts at
    most one offer. When it does, nothing is outstanding and the offer is the best of those that it holds,
    each other of which it declines once with the same answers; every proposal that comes afterwards
    is declined and not held. Until then it decides behind every answer, and every call that was not sent,
    that leaves nothing outstanding while it holds an offer. It brings at most one result, and just by the
    first message in the accepted dialogue with a measurement in it, at the station and the price of the
    offer that it decided for before. -/
theorem cheapest_bought_once (calls : List Call) (hone : (proposed calls).Nodup) :
    (accepts (({} : Client).actions calls)).length ≤ 1 ∧
    (({} : Client).results calls).length ≤ 1 ∧
    ∀ before x after, calls = before ++ x :: after →
      let c := ({} : Client).run before
      (∀ winner, .accept winner ∈ (c.call x).1 → (∃ offer, Decides (c.call x) winner offer) ∧
        ∀ between d p rest, after = between ++ .told (.propose d p) :: rest →
          let c' := (c.call x).2.run between
          (c'.react (.propose d p)).1 = [.decline d.id] ∧ (c'.react (.propose d p)).2.offers = c'.offers) ∧
      (x.Settles → c.accepted = none → (c.call x).2.outstanding = 0 →
        ∀ id o, (c.call x).2.offers.get? id = some o → ∃ winner offer, Decides (c.call x) winner offer) ∧
      (∀ p, c.result? x = some p ↔ Buys c x p) ∧
      ∀ winner offer, c.accepted = some (winner, offer) →
        ∃ earlier y between, before = earlier ++ y :: between ∧
          Decides ((({} : Client).run earlier).call y) winner offer := by
  have hfresh : Fresh {} calls := ⟨hone, fun _ _ => rfl⟩
  refine ⟨hfresh.length_accepts_le, length_results_le _ calls, ?_⟩
  rintro before x after rfl c
  have hx : Fresh c (x :: after) := hfresh.behind
  refine ⟨fun winner ha => ?_, fun hsettles hnone hzero _ _ ho => ?_, fun p => ?_,
    fun winner offer hacc => ?_⟩
  · obtain ⟨offer, hd⟩ := hx.decides_of_accept ha
    refine ⟨⟨offer, hd⟩, ?_⟩
    rintro between d p rest rfl
    exact react_propose_of_accepted (hx.tail.left.accepted_run hd.accepted).1 d p
  · exact hx.decides_of_settles hsettles hnone hzero ho
  · exact ⟨buys_of_result, result?_of_buys⟩
  · exact hfresh.left.exists_decides rfl hacc

/-- Of two offers the cheaper is accepted, a third that comes late is declined, and the measurement of the
accepted station is bought. -/
theorem cheaper_of_two_bought :
    let bob : Dialogue := .new 1 (.ofKey "bob") .initiator 0
    let carol : Dialogue := .new 2 (.ofKey "carol") .initiator 0
    let dave : Dialogue := .new 3 (.ofKey "dave") .initiator 0
    let before : List Call := [.expect 1, .told (.searchResult 1 [.ofKey "bob", .ofKey "carol"]),
      .told (.propose bob (Station.proposal { price := 10 }))]
    let x : Call := .told (.propose carol (Station.proposal { price := 7 }))
    let y : Call := .told (.message carol ({} : Measurement).toBytes)
    let late := Station.proposal { price := 1 }
    let calls := before ++ x :: [.told (.propose dave late), y]
    let c := (({} : Client).run before).call x
    let c' := ({} : Client).run (before ++ [x, .told (.propose dave late)])
    (proposed calls).Nodup ∧ (({} : Client).results calls).length ≤ 1 ∧
    (∃ offer, Decides c 2 offer) ∧
    (c.2.react (.propose dave late)).1 = [.decline 3] ∧
    ∃ p, c'.result? y = some p ∧ Buys c' y p := by
  intro bob carol dave before x y late calls c c'
  have hone : (proposed calls).Nodup := by decide
  obtain ⟨-, hresults, hall⟩ := cheapest_bought_once calls hone
  obtain ⟨haccept, -⟩ := hall before x _ rfl
  obtain ⟨hdecides, hlate⟩ := haccept 2 (by decide +kernel)
  obtain ⟨p, hp⟩ : ∃ p, c'.result? y = some p := Option.isSome_iff_exists.1 (by decide +kernel)
  obtain ⟨-, -, hbuys, -⟩ := hall (before ++ [x, .told (.propose dave late)]) y [] rfl
  exact ⟨hone, hresults, hdecides, (hlate [] dave late [y] rfl).1, p, hp, (hbuys p).1 hp⟩

end Negotiation.Weather.Client
