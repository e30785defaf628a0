import Negotiation.Proofs.Exchange.Arrivals

/-!
Runs of a broker. Agents connect and leave, stop reading, take what waits for them, and make requests
through connections that they got at any time, also before they left; all this in any order. Only a
request puts something in a mailbox, and only where there is room: in a broker that comes about no
mailbox is longer than the capacity.
-/

namespace Negotiation.Exchange

/-- Something that is done with a broker. -/
inductive Call where
  | connect (key : String)
  | disconnect (key : String)
  | abandon (key : String)
  | take (key : String)
  | request (key : String) (r : Request)

/-- The broker behind a call, which is the one before it when an agent cannot connect. -/
def call (x : Exchange) : Call → Exchange
  | .connect key => (x.connect key).toOption.getD x
  | .disconnect key => x.disconnect key
  | .abandon key => x.abandon key
  | .take key => (x.take key).2
  | .request key r => (x.submit key r).2

/-- The broker behind some calls. -/
def run (x : Exchange) (cs : List Call) : Exchange := cs.foldl call x

/-- A broker that comes about by calls from a new one. -/
def Reachable (x : Exchange) : Prop := ∃ capacity cs, x = (new capacity).run cs

/-- No mailbox is longer than the capacity. -/
def Fits (x : Exchange) : Prop := ∀ key, (x.waiting key).length ≤ x.capacity

variable {x y : Exchange} {key other dest : String} {e : Event} {r : Request} {c : Call}

theorem run_append (x : Exchange) (cs cs' : List Call) : x.run (cs ++ cs') = (x.run cs).run cs' :=
  List.foldl_append

theorem run_concat (x : Exchange) (cs : List Call) (c : Call) : x.run (cs ++ [c]) = (x.run cs).call c :=
  run_append x cs [c]

theorem Reachable.call (h : x.Reachable) (c : Call) : (x.call c).Reachable := by
  obtain ⟨capacity, cs, rfl⟩ := h
  exact ⟨capacity, cs ++ [c], (run_concat ..).symm⟩

/-! ### Connections -/

theorem isConnected_congr (h : y.mailboxes.get? key = x.mailboxes.get? key) :
    y.isConnected key = x.isConnected key := by
  rw [isConnected, mailbox?, h, isConnected, mailbox?]

theorem isConnected_setMailbox (x : Exchange) (key other : String) (b : Mailbox) :
    (x.setMailbox key b).isConnected other = if key = other then b.connected else x.isConnected other := by
  by_cases h : key = other
  · rw [if_pos h, isConnected, mailbox?, get?_setMailbox, if_pos h]
    cases hb : b.connected <;> simp [hb]
  · rw [if_neg h]
    exact isConnected_congr ((get?_setMailbox ..).trans (if_neg h))

theorem isConnected_of_mailbox? {b : Mailbox} (h : x.mailbox? key = some b) :
    x.isConnected key ∧ b.connected := by
  constructor
  · rw [isConnected, h]
    rfl
  · exact (Option.filter_eq_some_iff.1 h).2

/-- A mailbox that is changed as to what waits leaves everybody connected or not. -/
theorem isConnected_setEvents {b : Mailbox} (h : x.mailboxes.get? key = some b) (b' : Mailbox)
    (hb : b'.connected = b.connected) (other : String) :
    (x.setMailbox key b').isConnected other = x.isConnected other := by
  rw [isConnected_setMailbox]
  split
  · next he =>
    rw [← he, hb, isConnected, mailbox?, h]
    cases hc : b.connected <;> simp [hc]
  · rfl

/-! ### Requests -/

/-- A delivery posts to the destination, and perhaps to the sender: what a post keeps, it keeps. -/
theorem deliver_keeps {I : Exchange → Prop} (hpost : ∀ x dest e, I x → I (x.post dest e).2) (hx : I x)
    (sender : String) (m : Outgoing) : I (x.deliver sender m).2 := by
  rw [deliver]
  split
  · exact hx
  · split
    · exact hx
    · next a _ =>
      have hposted := hpost x a.key (.agent (m.delivered (.ofKey sender))) hx
      split
      · next hp =>
        rw [hp] at hposted
        exact (respond_snd ..).symm ▸ hpost _ sender _ hposted
      · exact hposted

/-! ### Lengths of mailboxes -/

theorem capacity_disconnect (x : Exchange) (key : String) : (x.disconnect key).capacity = x.capacity := by
  rw [disconnect]
  split <;> rfl

theorem Fits.disconnect (h : x.Fits) (key : String) : (x.disconnect key).Fits := by
  intro other
  rw [waiting_disconnect, capacity_disconnect]
  exact h other

theorem Fits.setMailbox (h : x.Fits) {b : Mailbox} (hb : b.events.length ≤ x.capacity) (key : String) :
    (x.setMailbox key b).Fits := by
  intro other
  rw [waiting_setMailbox]
  split
  · exact hb
  · exact h other

/-- A post needs room in the mailbox. -/
theorem Fits.post (h : x.Fits) (dest : String) (e : Event) : (x.post dest e).2.Fits := by
  rw [Exchange.post]
  split
  · exact h
  · next b _ =>
    split
    · exact h.disconnect dest
    · split
      · exact h
      · next hroom =>
        refine h.setMailbox ?_ dest
        rw [List.length_append, List.length_singleton]
        omega

theorem Fits.respond (h : x.Fits) (key : String) (e : Event) : (x.respond key e).2.Fits :=
  x.respond_snd key e ▸ h.post key e

theorem Fits.submit (h : x.Fits) (key : String) (r : Request) : (x.submit key r).2.Fits := by
  cases r with
  | send m => exact deliver_keeps (fun _ dest e h => h.post dest e) h key m
  | register id route d => exact h
  | unregister id route d =>
    rw [Exchange.submit, unregister]
    split
    · exact h
    · exact h.respond key _
  | search id query => exact h.respond key _
  | searchWide id query => exact h.respond key _

theorem Fits.call (h : x.Fits) (c : Call) : (x.call c).Fits := by
  cases c with
  | connect key =>
    rw [Exchange.call]
    cases hy : x.connect key with
    | error err => exact h
    | ok y =>
      rw [Exchange.connect] at hy
      split at hy
      · cases hy
      · split at hy
        · cases hy
        · cases hy
          exact h.setMailbox (Nat.zero_le _) key
  | disconnect key => exact h.disconnect key
  | abandon key =>
    rw [Exchange.call, Exchange.abandon]
    split
    · exact h.setMailbox (Nat.zero_le _) key
    · exact h
  | take key =>
    rw [Exchange.call]
    rcases x.take_cases key with ht | ⟨b, e, rest, hw, ht⟩ <;> rw [ht]
    · exact h
    · refine h.setMailbox (Nat.le_of_succ_le ?_) key
      simpa only [hw, List.length_cons] using h key
  | request key r => exact h.submit key r

theorem Fits.run (h : x.Fits) (cs : List Call) : (x.run cs).Fits := by
  induction cs generalizing x with
  | nil => exact h
  | cons c cs ih => exact ih (h.call c)

/-- No mailbox of a broker that comes about is longer than the capacity. -/
theorem Reachable.fits (h : x.Reachable) : x.Fits := by
  obtain ⟨capacity, cs, rfl⟩ := h
  have hnew : (new capacity).Fits := fun _ => Nat.zero_le _
  exact hnew.run cs

end Negotiation.Exchange
