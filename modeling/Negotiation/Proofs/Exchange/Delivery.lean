import Negotiation.Proofs.Exchange.Runs

/-!
What a message does at the broker. It gets to the end of the mailbox of its destination, or, when nobody
takes events there, a dialogue error gets to the end of the sender's own mailbox; if neither has room or
the sender is gone itself, the message is refused and no mailbox changes. On the way an agent that reads
no more is disconnected, and nobody else. `Courses` lists the seven things that can happen. Main
statement: `one_event_or_none`.
-/

namespace Negotiation.Exchange

variable {x y : Exchange} {key other dest sender : String} {e : Event} {m : Outgoing} {a : Address}

/-- An agent is connected and takes events. -/
def Present (x : Exchange) (key : String) : Prop := ∃ b, x.mailbox? key = some b ∧ b.reading

/-- An agent's mailbox has no room. -/
def Full (x : Exchange) (key : String) : Prop := x.capacity ≤ (x.waiting key).length

/-- One event gets to the end of one mailbox, and all others stay as they are. -/
def Appends (x y : Exchange) (key : String) (e : Event) : Prop :=
  y.waiting key = x.waiting key ++ [e] ∧ ∀ other, other ≠ key → y.waiting other = x.waiting other

/-- The refusal for want of room. -/
def overflow (key : String) : TransportError := .refused ("event queue of " ++ key ++ " is full")

/-- The refusal of a message that goes to nobody. -/
def astray (m : Outgoing) : TransportError :=
  .refused ("dialogue " ++ toString m.dialogue.toNat ++ " has no destination")

/-! ### Posts -/

theorem Present.isConnected (h : x.Present key) : x.isConnected key := by
  obtain ⟨b, hb, -⟩ := h
  exact (isConnected_of_mailbox? hb).1

/-- Where nobody takes events nothing is posted, and the agent, if it is connected, is disconnected. -/
theorem post_of_absent (h : ¬ x.Present key) (e : Event) :
    x.post key e = (.error (.unknownDestination key), x.disconnect key) := by
  rw [post]
  cases hb : x.mailbox? key with
  | none => rw [disconnect, hb]
  | some b =>
    have hr : ¬ b.reading := fun hr => h ⟨b, hb, hr⟩
    simp only [if_pos hr]

theorem post_of_full (h : x.Present key) (hf : x.Full key) (e : Event) :
    x.post key e = (.error (overflow key), x) := by
  obtain ⟨b, hb, hr⟩ := h
  rw [Full, waiting_of_mailbox? hb] at hf
  rw [post, hb]
  simp only [hr, not_true_eq_false, if_false, if_pos hf]
  rfl

/-- Where somebody takes events and there is room, the event is posted, and nobody leaves. -/
theorem post_of_room (h : x.Present key) (hf : ¬ x.Full key) (e : Event) :
    ∃ y, x.post key e = (.ok (), y) ∧ x.Appends y key e ∧
      ∀ other, y.isConnected other = x.isConnected other := by
  obtain ⟨b, hb, hr⟩ := h
  rw [Full, waiting_of_mailbox? hb] at hf
  refine ⟨x.setMailbox key { b with events := b.events ++ [e] }, ?_, ⟨?_, fun other hne => ?_⟩, ?_⟩
  · rw [post, hb]
    simp only [hr, not_true_eq_false, if_false, if_neg hf]
  · rw [waiting_setMailbox, if_pos rfl, waiting_of_mailbox? hb]
  · rw [waiting_setMailbox, if_neg (Ne.symm hne)]
  · exact isConnected_setEvents (Option.filter_eq_some_iff.1 hb).1 { b with events := b.events ++ [e] } rfl

/-! ### Leaving -/

theorem mailboxes_disconnect_ne (hne : dest ≠ other) :
    (x.disconnect dest).mailboxes.get? other = x.mailboxes.get? other := by
  rw [disconnect]
  split
  · exact (get?_setMailbox ..).trans (if_neg hne)
  · rfl

theorem mailbox?_disconnect (x : Exchange) (key : String) : (x.disconnect key).mailbox? key = none := by
  cases hb : x.mailbox? key with
  | none => rw [disconnect, hb, hb]
  | some b =>
    have hbox : (x.disconnect key).mailboxes.get? key = some { b with connected := false } := by
      rw [disconnect_eq hb]
      exact (get?_setMailbox ..).trans (if_pos rfl)
    rw [mailbox?, hbox]
    rfl

/-- When an agent that takes no events leaves, those that do are still there. -/
theorem present_disconnect (h : ¬ x.Present dest) : (x.disconnect dest).Present key ↔ x.Present key := by
  by_cases hk : dest = key
  · subst hk
    refine ⟨fun ⟨b, hb, _⟩ => ?_, fun hp => absurd hp h⟩
    rw [mailbox?_disconnect] at hb
    cases hb
  · rw [Present, mailbox?, mailboxes_disconnect_ne hk, Present, mailbox?]

theorem full_disconnect : (x.disconnect dest).Full key ↔ x.Full key := by
  rw [Full, waiting_disconnect, capacity_disconnect, Full]

theorem isConnected_disconnect (x : Exchange) (dest key : String) :
    (x.disconnect dest).isConnected key ↔ x.isConnected key ∧ dest ≠ key := by
  by_cases hk : dest = key
  · subst hk
    rw [isConnected, mailbox?_disconnect]
    simp
  · rw [isConnected_congr (mailboxes_disconnect_ne hk)]
    simp [hk]

/-! ### Courses of a message -/

/-- What can happen to a message, by who is there and where there is room: the result and the broker
behind it. -/
inductive Courses (x : Exchange) (sender : String) (m : Outgoing) :
    Except TransportError Unit → Exchange → Prop
  | away (hs : ¬ x.isConnected sender) : Courses x sender m (.error .disconnected) x
  | nowhere (hs : x.isConnected sender) (hd : m.destination? = none) :
      Courses x sender m (.error (astray m)) x
  | delivered {a : Address} {y : Exchange} (hs : x.isConnected sender) (hd : m.destination? = some a)
      (ha : x.Present a.key) (hroom : ¬ x.Full a.key)
      (hy : x.Appends y a.key (.agent (m.delivered (.ofKey sender))))
      (hc : ∀ other, y.isConnected other = x.isConnected other) : Courses x sender m (.ok ()) y
  | crowded {a : Address} (hs : x.isConnected sender) (hd : m.destination? = some a)
      (ha : x.Present a.key) (hfull : x.Full a.key) : Courses x sender m (.error (overflow a.key)) x
  | returned {a : Address} {y : Exchange} (hs : x.Present sender) (hd : m.destination? = some a)
      (ha : ¬ x.Present a.key) (hroom : ¬ x.Full sender)
      (hy : x.Appends y sender (.dialogueError m.answer m.dialogue a))
      (hc : ∀ other, y.isConnected other = (x.disconnect a.key).isConnected other) :
      Courses x sender m (.ok ()) y
  | unreturned {a : Address} (hs : x.Present sender) (hd : m.destination? = some a)
      (ha : ¬ x.Present a.key) (hfull : x.Full sender) :
      Courses x sender m (.error (overflow sender)) (x.disconnect a.key)
  | gone {a : Address} (hs : x.isConnected sender) (hread : ¬ x.Present sender)
      (hd : m.destination? = some a) (ha : ¬ x.Present a.key) :
      Courses x sender m (.error .disconnected) ((x.disconnect a.key).disconnect sender)

/-- A message takes one of its courses. -/
theorem courses_deliver (x : Exchange) (sender : String) (m : Outgoing) :
    x.Courses sender m (x.deliver sender m).1 (x.deliver sender m).2 := by
  rw [deliver]
  by_cases hs : x.isConnected sender
  case neg =>
    rw [if_pos hs]
    exact .away hs
  rw [if_neg (not_not.2 hs)]
  cases hd : m.destination? with
  | none => exact .nowhere hs hd
  | some a =>
    simp only
    by_cases ha : x.Present a.key
    · by_cases hf : x.Full a.key
      · rw [post_of_full ha hf]
        exact .crowded hs hd ha hf
      · obtain ⟨y, hp, hy, hc⟩ := post_of_room ha hf (.agent (m.delivered (.ofKey sender)))
        rw [hp]
        exact .delivered hs hd ha hf hy hc
    · -- nobody is there: the sender is told, if it is there itself and has room
      rw [post_of_absent ha]
      simp only [respond]
      by_cases hp : x.Present sender
      · have hp' := (present_disconnect ha).2 hp
        by_cases hf : x.Full sender
        · rw [post_of_full hp' (full_disconnect.2 hf)]
          exact .unreturned hp hd ha hf
        · obtain ⟨y, hpost, hy, hc⟩ := post_of_room hp' (mt full_disconnect.1 hf)
            (.dialogueError m.answer m.dialogue a)
          rw [hpost]
          simp only [Appends, waiting_disconnect] at hy
          exact .returned hp hd ha hf hy hc
      · rw [post_of_absent (mt (present_disconnect ha).1 hp)]
        exact .gone hs hp hd ha

section Courses

variable {r : Except TransportError Unit}

/-- Whatever its course, a refused message changes no mailbox. -/
theorem Courses.waiting (h : x.Courses sender m r y) (hr : r ≠ .ok ()) (key : String) :
    y.waiting key = x.waiting key := by
  cases h with
  | away hs => rfl
  | nowhere hs hd => rfl
  | delivered hs hd ha hroom hy hc => exact absurd rfl hr
  | crowded hs hd ha hfull => rfl
  | returned hs hd ha hroom hy hc => exact absurd rfl hr
  | unreturned hs hd ha hfull => exact waiting_disconnect ..
  | gone hs hread hd ha => rw [waiting_disconnect, waiting_disconnect]

/-- Nobody is connected on the way, and who is disconnected took no events. -/
theorem Courses.connected (h : x.Courses sender m r y) (key : String) :
    (y.isConnected key → x.isConnected key) ∧ (x.Present key → y.isConnected key) := by
  have hleave : ∀ {x : Exchange} {dest : String}, ¬ x.Present dest →
      ((x.disconnect dest).isConnected key → x.isConnected key) ∧
      (x.Present key → (x.disconnect dest).isConnected key) := by
    intro x dest ha
    rw [isConnected_disconnect]
    refine ⟨And.left, fun hp => ⟨hp.isConnected, ?_⟩⟩
    rintro rfl
    exact ha hp
  cases h with
  | away hs => exact ⟨id, Present.isConnected⟩
  | nowhere hs hd => exact ⟨id, Present.isConnected⟩
  | delivered hs hd ha hroom hy hc =>
    rw [hc]
    exact ⟨id, Present.isConnected⟩
  | crowded hs hd ha hfull => exact ⟨id, Present.isConnected⟩
  | returned hs hd ha hroom hy hc =>
    rw [hc]
    exact hleave ha
  | unreturned hs hd ha hfull => exact hleave ha
  | gone hs hread hd ha =>
    have hthen := hleave (mt (present_disconnect ha).1 hread)
    exact ⟨fun hy => (hleave ha).1 (hthen.1 hy), fun hp => hthen.2 ((present_disconnect ha).2 hp)⟩

/-- The sender hears that it is disconnected exactly when it is, or is found to read no more when the
message comes back. -/
theorem Courses.disconnected_iff (h : x.Courses sender m r y) : r = .error .disconnected ↔
    ¬ x.isConnected sender ∨ ∃ a, m.destination? = some a ∧ ¬ x.Present a.key ∧ ¬ x.Present sender := by
  cases h with
  | away hs => simp [hs]
  | nowhere hs hd => simp [hs, hd, astray]
  | delivered hs hd ha hroom hy hc => simp [hs, hd, ha]
  | crowded hs hd ha hfull => simp [hs, hd, ha, overflow]
  | returned hs hd ha hroom hy hc => simp [hs, hs.isConnected]
  | unreturned hs hd ha hfull => simp [hs, hs.isConnected, overflow]
  | gone hs hread hd ha => simp [hd, ha, hread]

/-- A message is refused exactly when it goes to nobody or finds no room. -/
theorem Courses.refused_iff (h : x.Courses sender m r y) : (∃ reason, r = .error (.refused reason)) ↔
    x.isConnected sender ∧ (m.destination? = none ∨ ∃ a, m.destination? = some a ∧
      (x.Present a.key ∧ x.Full a.key ∨ ¬ x.Present a.key ∧ x.Present sender ∧ x.Full sender)) := by
  cases h with
  | away hs => simp [hs]
  | nowhere hs hd => simp [hs, hd, astray]
  | delivered hs hd ha hroom hy hc => simp [hs, hd, ha, hroom]
  | crowded hs hd ha hfull => simp [hs, hd, ha, hfull, overflow]
  | returned hs hd ha hroom hy hc => simp [hd, ha, hroom]
  | unreturned hs hd ha hfull => simp [hs, hs.isConnected, hd, ha, hfull, overflow]
  | gone hs hread hd ha => simp [hd, ha, hread]

end Courses

/-- ONE EVENT OR NONE: a message that an agent's connection takes makes one event at the end of one
    mailbox: itself, at its destination, with the number, the dialogue, the target and the content that it
    was given and the sender's key; or, exactly when nobody takes events there, a dialogue error with its
    number, its dialogue and its destination, at the sender. A message that is not taken changes no
    mailbox; that is when the sender is not connected, or is found to read no more when the message comes
    back (`disconnected`), and when it goes to nobody or finds no room (`refused`), and the sender never
    hears of an unknown destination. Nobody joins by it, and nobody leaves who takes events; and in a broker
    that comes about no mailbox is longer than the capacity, before or after. -/
theorem one_event_or_none (x : Exchange) (sender : String) (m : Outgoing) :
    let r := (x.submit sender (.send m)).1
    let y := (x.submit sender (.send m)).2
    (r = .ok () → ∃ a, m.destination? = some a ∧
      ((x.Present a.key ∧ ∃ msg : Message, msg.answer = m.answer ∧ msg.dialogue = m.dialogue ∧
          msg.target = m.target ∧ msg.body = m.body ∧ msg.origin.key = sender ∧
          x.Appends y a.key (.agent msg)) ∨
       (¬ x.Present a.key ∧ x.Appends y sender (.dialogueError m.answer m.dialogue a)))) ∧
    (r ≠ .ok () → ∀ key, y.waiting key = x.waiting key) ∧
    (r = .error .disconnected ↔ ¬ x.isConnected sender ∨
      ∃ a, m.destination? = some a ∧ ¬ x.Present a.key ∧ ¬ x.Present sender) ∧
    ((∃ reason, r = .error (.refused reason)) ↔ x.isConnected sender ∧
      (m.destination? = none ∨ ∃ a, m.destination? = some a ∧
        (x.Present a.key ∧ x.Full a.key ∨ ¬ x.Present a.key ∧ x.Present sender ∧ x.Full sender))) ∧
    (∀ name, r ≠ .error (.unknownDestination name)) ∧
    (∀ key, (y.isConnected key → x.isConnected key) ∧ (x.Present key → y.isConnected key)) ∧
    (x.Reachable → x.Fits ∧ y.Fits) := by
  intro r y
  have hc : x.Courses sender m r y := courses_deliver x sender m
  refine ⟨fun hr => ?_, hc.waiting, hc.disconnected_iff, hc.refused_iff, fun name hr => ?_, hc.connected,
    fun h => ⟨h.fits, (h.call (.request sender (.send m))).fits⟩⟩
  · rw [hr] at hc
    cases hc with
    | delivered hs hd ha hroom hy hcon =>
      exact ⟨_, hd, .inl ⟨ha, _, rfl, rfl, rfl, rfl, m.key_originFor _, hy⟩⟩
    | returned hs hd ha hroom hy hcon => exact ⟨_, hd, .inr ⟨ha, hy⟩⟩
  · rw [hr] at hc
    cases hc

/-- Bob has stopped reading, and mailboxes hold one event: Alice's call comes back to her and Bob is
disconnected; her second call finds no room for its way back, and changes nothing. -/
theorem returned_once :
    let x := (new 1).run [.connect "alice", .connect "bob", .abandon "bob"]
    let call : Outgoing :=
      { answer := 1, dialogue := 5, target := 0, body := .cfp .nothing
        route := .towards (.ofKey "alice") (.ofKey "bob") true }
    let y := (x.submit "alice" (.send call)).2
    let again := y.submit "alice" (.send call)
    (x.submit "alice" (.send call)).1 = .ok () ∧ x.isConnected "bob" ∧ ¬ y.isConnected "bob" ∧
    y.waiting "alice" = [.dialogueError 1 5 (.ofKey "bob")] ∧
    again.1 = .error (overflow "alice") ∧ again.2.waiting "alice" = y.waiting "alice" := by
  intro x call y again
  have hok : (x.submit "alice" (.send call)).1 = .ok () := by decide +kernel
  have hfull : again.1 = .error (overflow "alice") := by decide +kernel
  have habsent : ¬ x.Present "bob" := by
    rintro ⟨b, hb, hr⟩
    cases hb
    cases hr
  obtain ⟨a, ha, hcourse⟩ := (one_event_or_none x "alice" call).1 hok
  obtain rfl : Address.ofKey "bob" = a := Option.some.inj (show some (Address.ofKey "bob") = some a from ha)
  obtain ⟨-, hwaiting, -⟩ := hcourse.resolve_left fun h => habsent h.1
  have hsame := (one_event_or_none y "alice" call).2.1
  refine ⟨hok, by decide +kernel, by decide +kernel, hwaiting, hfull, hsame ?_ "alice"⟩
  show again.1 ≠ .ok ()
  rw [hfull]
  rintro ⟨⟩

end Negotiation.Exchange
