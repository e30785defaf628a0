import Negotiation.Proofs.Agent.Order
import Negotiation.Proofs.SortedMap
import Negotiation.Proofs.Weather.Choice

/-!
How long a client goes on when its actions fail. It asks for more only when a call was not sent and it
therefore decides, and it decides once; what it asks for then is one answer to each offer that it holds.
Main statement: `performing_ends`.
-/

namespace Negotiation.Weather.Client

/-- How much a client may still ask for when actions fail: an answer to each offer that it holds, and
nothing once it has decided. -/
def budget (c : Client) : Nat := if c.accepted.isSome then 0 else c.offers.size

theorem budget_le_size (c : Client) : c.budget ≤ c.offers.size := by
  rw [budget]
  split
  · exact Nat.zero_le _
  · exact Nat.le_refl _

theorem length_others {m : SortedMap DialogueId Offer} {winner : DialogueId} {o : Offer}
    (h : m.get? winner = some o) : (m.keys.filter (· ≠ winner)).length + 1 = m.size := by
  have hkey : winner ∈ m.keys := SortedMap.mem_keys_iff.2 ⟨o, h⟩
  have hothers : m.keys.erase winner = m.keys.filter (· ≠ winner) := by
    rw [m.nodup_keys.erase_eq_filter]
    exact List.filter_congr fun id _ => by simp [bne, beq_eq_decide]
  rw [← hothers, List.length_erase_add_one hkey, m.length_keys]

/-- A decision uses up all that a client may ask for. -/
theorem spends_conclude (c : Client) : c.conclude.1.length + c.conclude.2.budget ≤ c.budget := by
  rw [conclude]
  split
  · exact Nat.le_of_eq (Nat.zero_add _)
  · next hopen =>
    have hnone : ¬ c.accepted.isSome := (not_or.1 hopen).1
    by_cases hnil : c.offers.toList = []
    · rw [hnil]
      exact Nat.le_of_eq (Nat.zero_add _)
    · obtain ⟨⟨winner, offer⟩, hmem, hbest, -⟩ := best?_spec _ hnil
      have hsize := length_others (SortedMap.mem_toList_iff.1 hmem)
      rw [hbest]
      simp only [budget, hnone, Bool.false_eq_true, if_false, Option.isSome_some, if_true, List.length_cons,
        List.length_map]
      omega

theorem handler_spends : handler.Spends budget := by
  intro c a f
  show (c.react (.actionFailed a f)).1.length + (c.react (.actionFailed a f)).2.budget ≤ c.budget
  cases a with
  | cfp peer payload => exact spends_conclude { c with outstanding := c.outstanding - 1 }
  | _ => exact Nat.le_of_eq (Nat.zero_add _)

/-- ENDING: whatever an engine holds, a client remembers and the transport takes or refuses, performing
    actions for the client comes to an end, with one result however much it is allowed; and no more
    actions are executed than were given and the client holds offers. -/
theorem performing_ends {β : Type} (T : Transport β) (now : Millis) (s : Linked β) (c : Client)
    (actions : List Action) :
    (∃ r, ∀ more, Linked.performFor T handler now (actions.length + c.offers.size + more) s c actions =
      some r) ∧
    ∀ bound, (Linked.executed T handler now bound s c actions).length ≤ actions.length + c.offers.size := by
  have hb : actions.length + c.budget ≤ actions.length + c.offers.size :=
    Nat.add_le_add_left c.budget_le_size _
  obtain ⟨r, hr⟩ := handler_spends.performFor T now s c hb
  exact ⟨⟨r, fun more => Linked.performFor_le (Nat.le_add_right ..) hr⟩,
    Linked.length_executed_le_of_performFor hr⟩

/-- The call that was last outstanding is not sent, so the client decides between two offers: as many
actions are executed as can be, though all of them fail. -/
example :
    let e : Engine := { home := .ofKey "alice", table := .new {} 1 }
    let link : Recording := { fault := some ⟨.disconnected, 0, none⟩ }
    let c : Client :=
      { outstanding := 1, offers := .ofList [(7, ⟨.ofKey "bob", 5⟩), (8, ⟨.ofKey "carol", 4⟩)] }
    let call : Action := .cfp (.ofKey "dave") .nothing
    (Linked.executed .recorder handler 0 9 ⟨e, link⟩ c [call]).map (·.2) =
      [call, .accept 8, .decline 7] := by
  decide +kernel

end Negotiation.Weather.Client
