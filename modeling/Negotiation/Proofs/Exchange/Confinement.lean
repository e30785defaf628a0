import Negotiation.Proofs.Agent.Reachable
import Negotiation.Proofs.Exchange

/-!
What one agent of a broker can do to another. It may send whatever messages it likes, with routes that
name anybody, and register, unregister and search; all that another agent gets of this are messages, and
these come with the sender's own key. An engine that commits such a message leaves all dialogues with
others alone. Main statement: both for every run of requests, and every engine that comes about.
-/

namespace Negotiation

/-- An event brings a message of the agent of a key. -/
def Event.IsMessageOf (key : String) (e : Event) : Prop := ∃ m, e = .agent m ∧ m.origin.key = key

theorem Outgoing.isMessageOf_delivered (m : Outgoing) (key : String) :
    (Event.agent (m.delivered (.ofKey key))).IsMessageOf key :=
  ⟨_, rfl, m.key_originFor _⟩

/-! ### The broker -/

namespace Exchange

variable {x y z : Exchange} {key other dest : String} {e : Event}

/-- The broker behind requests of one agent. -/
def serve (x : Exchange) (key : String) (rs : List Request) : Exchange :=
  rs.foldl (fun x r => (x.submit key r).2) x

/-- An agent, if it is connected, still takes events. -/
def Listens (x : Exchange) (key : String) : Prop := ∀ b, x.mailbox? key = some b → b.reading

/-- All that requests of `key`'s agent do to the agent of another key: messages of the one get to the
mailbox of the other, and if the other listens, it goes on to and its services stay. -/
structure Confined (key other : String) (x y : Exchange) : Prop where
  posted : ∃ events, y.waiting other = x.waiting other ++ events ∧ ∀ e ∈ events, e.IsMessageOf key
  listens : x.Listens other → y.Listens other
  services : x.Listens other → y.servicesOf other = x.servicesOf other

namespace Confined

/-- What happens to a mailbox and the services of one agent is nothing to another. -/
theorem of_same (hbox : y.mailboxes.get? other = x.mailboxes.get? other)
    (hserv : y.services.get? other = x.services.get? other) : Confined key other x y where
  posted := ⟨[], by simp [waiting, hbox], by simp⟩
  listens h := by
    rw [Listens, mailbox?, hbox]
    exact h
  services _ := by rw [servicesOf, hserv, servicesOf]

theorem refl (key other : String) (x : Exchange) : Confined key other x x := of_same rfl rfl

theorem trans (h : Confined key other x y) (h' : Confined key other y z) : Confined key other x z where
  posted := by
    obtain ⟨events, hw, hall⟩ := h.posted
    obtain ⟨events', hw', hall'⟩ := h'.posted
    refine ⟨events ++ events', by rw [hw', hw, List.append_assoc], ?_⟩
    exact List.forall_mem_append.2 ⟨hall, hall'⟩
  listens hl := h'.listens (h.listens hl)
  services hl := (h'.services (h.listens hl)).trans (h.services hl)

end Confined

/-- Posting fails and changes nothing, finds that nobody takes events and disconnects the agent, or
gets the event to the end of the mailbox. -/
theorem post_cases (x : Exchange) (dest : String) (e : Event) :
    (x.post dest e).2 = x ∨
    (∃ b, x.mailbox? dest = some b ∧ ¬ b.reading ∧ (x.post dest e).2 = x.disconnect dest) ∨
    ∃ b, x.mailbox? dest = some b ∧ b.reading ∧
      (x.post dest e).2 = x.setMailbox dest { b with events := b.events ++ [e] } := by
  rw [post]
  cases hb : x.mailbox? dest with
  | none => exact .inl rfl
  | some b =>
    simp only
    split
    · next hr => exact .inr (.inl ⟨b, rfl, hr, rfl⟩)
    · next hr =>
      split
      · exact .inl rfl
      · exact .inr (.inr ⟨b, rfl, not_not.1 hr, rfl⟩)

theorem waiting_of_mailbox? {b : Mailbox} (h : x.mailbox? key = some b) : x.waiting key = b.events := by
  rw [waiting, (Option.filter_eq_some_iff.1 h).1]

/-- Disconnecting takes nothing out of a mailbox. -/
theorem disconnect_eq {b : Mailbox} (h : x.mailbox? dest = some b) : x.disconnect dest =
    { x.setMailbox dest { b with connected := false } with services := x.services.erase dest } := by
  rw [disconnect, h]

/-- Posting to another agent than `other` is nothing to it. -/
theorem confined_post_ne (hne : dest ≠ other) (e : Event) : Confined key other x (x.post dest e).2 := by
  rcases x.post_cases dest e with h | ⟨b, hb, -, h⟩ | ⟨b, -, -, h⟩ <;> rw [h]
  · exact .refl ..
  · rw [disconnect_eq hb]
    refine .of_same ?_ ?_
    · exact (get?_setMailbox ..).trans (if_neg hne)
    · exact (SortedMap.get?_erase ..).trans (if_neg hne)
  · exact .of_same ((get?_setMailbox ..).trans (if_neg hne)) rfl

/-- Posting a message of `key`'s agent is all that may happen to another. -/
theorem confined_post (he : e.IsMessageOf key) : Confined key other x (x.post dest e).2 := by
  by_cases hne : dest = other
  case neg => exact confined_post_ne hne e
  subst hne
  rcases x.post_cases dest e with h | ⟨b, hb, hr, h⟩ | ⟨b, hb, hr, h⟩ <;> rw [h]
  · exact .refl ..
  · -- nobody takes events there any more, so only the mailbox is left to speak of
    have hdeaf : ¬ x.Listens dest := fun hl => hr (hl b hb)
    refine ⟨⟨[], ?_, by simp⟩, fun hl => absurd hl hdeaf, fun hl => absurd hl hdeaf⟩
    rw [List.append_nil, waiting_of_mailbox? hb, disconnect_eq hb, waiting]
    simp only [get?_setMailbox, if_true]
  · refine ⟨⟨[e], ?_, by simpa using he⟩, fun _ b' hb' => ?_, fun _ => rfl⟩
    · rw [waiting_of_mailbox? hb, waiting, get?_setMailbox, if_pos rfl]
    · rw [mailbox?, get?_setMailbox, if_pos rfl] at hb'
      obtain rfl := Option.some.inj (Option.filter_eq_some_iff.1 hb').1
      exact hr

section Requests

variable (hne : key ≠ other)
include hne

theorem confined_respond (e : Event) : Confined key other x (x.respond key e).2 := by
  rw [respond_snd]
  exact confined_post_ne hne e

theorem confined_deliver (m : Outgoing) : Confined key other x (x.deliver key m).2 := by
  rw [deliver]
  split
  · exact .refl ..
  · split
    · exact .refl ..
    · next destination _ =>
      have hpost : Confined key other x
          (x.post destination.key (.agent (m.delivered (.ofKey key)))).2 :=
        confined_post (m.isMessageOf_delivered key)
      split
      · next hp =>
        rw [hp] at hpost
        exact hpost.trans (confined_respond hne _)
      · exact hpost

theorem confined_offers (offers : SortedMap String Description) :
    Confined key other x { x with services := x.services.insert key offers } :=
  .of_same rfl ((SortedMap.get?_insert ..).trans (if_neg hne))

theorem confined_submit (r : Request) : Confined key other x (x.submit key r).2 := by
  cases r with
  | send m => exact confined_deliver hne m
  | register id route d => exact confined_offers hne _
  | unregister id route d =>
    rw [submit, unregister]
    split
    · exact confined_offers hne _
    · exact confined_respond hne _
  | search id query => exact confined_respond hne _
  | searchWide id query => exact confined_respond hne _

theorem confined_serve (x : Exchange) (rs : List Request) : Confined key other x (x.serve key rs) := by
  induction rs generalizing x with
  | nil => exact .refl ..
  | cons r rest ih => exact (confined_submit hne r).trans (ih _)

end Requests

end Exchange

/-! ### The engine -/

namespace Engine

/-- All that a message of `key`'s agent does to the dialogues of an engine: those with others stay as
they are, those with it stay, and at most one is new, which is with it. -/
structure Spares (key : String) (e e' : Engine) : Prop where
  others : ∀ id d, e.table.get? id = some d → d.counterparty.key ≠ key → e'.table.get? id = some d
  held : ∀ id d, e.table.get? id = some d →
    ∃ d', e'.table.get? id = some d' ∧ d'.counterparty = d.counterparty
  fresh : ∃ id₀, ∀ id d, e.table.get? id = none → e'.table.get? id = some d →
    id = id₀ ∧ d.counterparty.key = key

theorem Spares.refl (key : String) (e : Engine) : Spares key e e where
  others _ _ hd _ := hd
  held _ d hd := ⟨d, hd, rfl⟩
  fresh := ⟨0, fun id d hn hd => by simp [hn] at hd⟩

/-- Putting a dialogue with `key`'s agent in place, of which the counterparty is the one it had. -/
theorem spares_put {key : String} {e : Engine} {d : Dialogue} (hkey : d.counterparty.key = key)
    (hheld : ∀ d₀, e.table.get? d.id = some d₀ → d₀.counterparty = d.counterparty) :
    Spares key e (e.put d) where
  others id d₀ hd hne := by
    rw [get?_put]
    split
    · next hid =>
      subst hid
      exact absurd (congrArg Address.key (hheld d₀ hd) |>.trans hkey) hne
    · exact hd
  held id d₀ hd := by
    rw [get?_put]
    split
    · next hid =>
      subst hid
      exact ⟨d, rfl, (hheld d₀ hd).symm⟩
    · exact ⟨d₀, hd, rfl⟩
  fresh := by
    refine ⟨d.id, fun id d' hn hd' => ?_⟩
    rw [get?_put] at hd'
    split at hd'
    · next hid =>
      obtain rfl := Option.some.inj hd'
      exact ⟨hid.symm, hkey⟩
    · simp [hn] at hd'

/-- Committing a message leaves the dialogues with others than its sender alone. -/
theorem Holds.spares_observe {e : Engine} {P : Dialogue → Prop} (h : e.Holds P) (now : Millis)
    {key : String} {ev : Event} (hev : ev.IsMessageOf key) : Spares key e (e.observe now ev).2.1 := by
  obtain ⟨m, rfl, hkey⟩ := hev
  rcases e.observe_engine now (.agent m) with he | ⟨m, d', ⟨⟩, hr, he⟩ | ⟨_, _, _, _, _, ⟨⟩, -⟩
  · exact he.symm ▸ .refl key e
  · obtain ⟨hx, s, hs, rfl⟩ := Dialogue.receive_eq_ok_iff.1 hr
    have hfrom : (e.found m now).counterparty.key = key := (of_decide_eq_true hx.1).symm.trans hkey
    have hid : (e.found m now).id = m.dialogue := h.found_id m now
    rw [he]
    refine spares_put hfrom fun d₀ hd₀ => ?_
    have hd₀ : e.table.get? m.dialogue = some d₀ := hid ▸ hd₀
    simp [Dialogue.received, found, hd₀]

end Engine

/-- CONFINED: whatever requests an agent makes of the broker, another agent gets nothing of them but
    messages that name the one who sent them, and while it takes events its services stay; and an engine
    that commits any of these messages keeps all dialogues with others as they are, loses none, and has
    at most one new dialogue, which is with the sender. -/
theorem Exchange.confined_to_own_dialogues (x : Exchange) {key other : String} (hne : key ≠ other)
    (rs : List Request) :
    (∃ events, (x.serve key rs).waiting other = x.waiting other ++ events ∧
      ∀ ev ∈ events, (∃ m, ev = .agent m ∧ m.origin.key = key) ∧
        ∀ (e : Engine) (now : Millis), e.Reachable → e.Spares key (e.observe now ev).2.1) ∧
    (x.Listens other → (x.serve key rs).servicesOf other = x.servicesOf other) := by
  have hconf := confined_serve hne x rs
  obtain ⟨events, hw, hall⟩ := hconf.posted
  refine ⟨⟨events, hw, fun ev hev => ⟨hall ev hev, fun e now he => ?_⟩⟩, hconf.services⟩
  exact (he.holds lasting_true).spares_observe now (hall ev hev)

/-- Mallory declines in Alice's name, in Bob's dialogue with her, and takes a service back that is
Bob's: the decline comes from Mallory, Bob's dialogue stays, and so does his service. -/
theorem forged_decline_spares :
    let x := (((Exchange.new 8).setMailbox "bob" {}).setMailbox "mallory" {}).register "bob" "station"
      (.generated .empty "weather")
    let forged : Outgoing :=
      { answer := 2, dialogue := 1, target := 1, body := .decline
        route := .towards (.ofKey "alice") (.ofKey "bob") true }
    let rs : List Request :=
      [.send forged, .unregister 1 (.ofService (.ofKey "bob") "station") (.generated .empty "weather")]
    let call : Message :=
      { answer := 1, dialogue := 1, origin := .ofKey "alice", target := 0, body := .cfp .nothing }
    let e : Engine := { home := .ofKey "bob", table := .new {} 1 }
    let bob := (e.observe 1 (.agent call)).2.1
    "mallory" ≠ "bob" ∧ x.Listens "bob" ∧
    (x.serve "mallory" rs).servicesOf "bob" = x.servicesOf "bob" ∧
    ∃ ev d, (x.serve "mallory" rs).waiting "bob" = [ev] ∧
      bob.table.get? 1 = some d ∧ d.counterparty.key = "alice" ∧
      (bob.observe 2 ev).2.1.table.get? 1 = some d := by
  intro x forged rs call e bob
  have hne : "mallory" ≠ "bob" := by decide
  have hlistens : x.Listens "bob" := by
    rintro b ⟨⟩
    rfl
  have hnew : Engine.new (.ofKey "bob") {} 1 = .ok e := rfl
  have hreach : bob.Reachable := (Engine.Reachable.new hnew).observe 1 (.agent call)
  obtain ⟨⟨events, hw, hall⟩, hserv⟩ := Exchange.confined_to_own_dialogues x hne rs
  have hone : (x.serve "mallory" rs).waiting "bob" = [.agent (forged.delivered (.ofKey "mallory"))] := by
    decide +kernel
  have hmem : .agent (forged.delivered (.ofKey "mallory")) ∈ events := by
    rw [hone, show x.waiting "bob" = [] from rfl, List.nil_append] at hw
    exact hw ▸ List.mem_singleton.2 rfl
  obtain ⟨-, hspares⟩ := hall _ hmem
  refine ⟨hne, hlistens, hserv hlistens, _, _, hone, rfl, rfl, ?_⟩
  exact (hspares bob 2 hreach).others 1 _ rfl (by decide)

end Negotiation
