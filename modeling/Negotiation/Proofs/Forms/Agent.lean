import Negotiation.Forms.Agent
import Negotiation.Proofs.Forms.Dialogue

/-!
The forms of events and actions lose nothing. Numbers are held by distances of what a wide search finds,
and by the proposals that are received or sent.
-/

namespace Negotiation

open Json

/-! ### Events -/

instance : Faithful Operation where
  decode_encode _ o _ := by cases o <;> rfl

instance : HasFloats SearchItem := ⟨fun i => AllFinite i.distance⟩

instance : Faithful SearchItem where
  decode_encode _ _ h :=
    members_bind rfl <| read_bind rfl trivial <| read_bind rfl trivial <| read_bind rfl trivial <|
      read_bind rfl trivial <| readOptional_bind rfl h rfl
  allFinite _ _ i hj h := by
    obtain ⟨ms, hms, h⟩ := of_members_bind hj h
    obtain ⟨agentKey, -, h⟩ := of_read_bind hms h
    obtain ⟨coreKey, -, h⟩ := of_read_bind hms h
    obtain ⟨coreAddress, -, h⟩ := of_read_bind hms h
    obtain ⟨port, -, h⟩ := of_read_bind hms h
    obtain ⟨distance, hdistance, h⟩ := of_readOptional_bind hms h
    exact Option.some.inj h ▸ hdistance

instance : HasFloats Event where
  AllFinite
    | .agent m => AllFinite m
    | .searchResultWide _ items => AllFinite items
    | _ => True

theorem get?_cons_of_ne {k name : String} (hne : k ≠ name) (j : Json) (ms : Members) :
    Members.get? ((k, j) :: ms) name = Members.get? ms name := by
  rw [Members.get?, if_neg hne, Option.or_none]

instance : Faithful Event where
  decode_encode _ e h := by
    cases e with
    | agent m =>
      have hm : decodeWith .lenient (.obj (("event", .str "agent") :: m.members)) = some m :=
        Message.decodeWith_obj h .lenient fun name hne => get?_cons_of_ne hne.symm _ _
      exact aroundTag_bind rfl (congrArg (Option.map Event.agent) hm)
    | searchResult search agents =>
      exact aroundTag_bind rfl <| members_bind rfl <| read_bind rfl trivial <|
        read_bind rfl (fun _ _ => trivial) rfl
    | searchResultWide search items =>
      exact aroundTag_bind rfl <| members_bind rfl <| read_bind rfl trivial <| read_bind rfl h rfl
    | requestError request operation cause detail =>
      exact aroundTag_bind rfl <| members_bind rfl <| read_bind rfl trivial <| read_bind rfl trivial <|
        readOptional_bind rfl (fun _ _ => trivial) <| readOptional_bind rfl (fun _ _ => trivial) rfl
    | dialogueError answer dialogue origin =>
      exact aroundTag_bind rfl <| members_bind rfl <| read_bind rfl trivial <| read_bind rfl trivial <|
        read_bind rfl trivial rfl
  allFinite _ _ e hj h := by
    obtain ⟨tag, rest, hrest, h⟩ := of_aroundTag_bind hj h
    dsimp only at h
    split at h
    · obtain ⟨m, hm, rfl⟩ := of_decode_map hrest h
      exact hm
    · obtain ⟨ms, hms, h⟩ := of_members_bind hrest h
      obtain ⟨search, -, h⟩ := of_read_bind hms h
      obtain ⟨agents, -, h⟩ := of_read_bind hms h
      exact Option.some.inj h ▸ trivial
    · obtain ⟨ms, hms, h⟩ := of_members_bind hrest h
      obtain ⟨search, -, h⟩ := of_read_bind hms h
      obtain ⟨items, hitems, h⟩ := of_read_bind hms h
      exact Option.some.inj h ▸ hitems
    · obtain ⟨ms, hms, h⟩ := of_members_bind hrest h
      obtain ⟨request, -, h⟩ := of_read_bind hms h
      obtain ⟨operation, -, h⟩ := of_read_bind hms h
      obtain ⟨cause, -, h⟩ := of_readOptional_bind hms h
      obtain ⟨detail, -, h⟩ := of_readOptional_bind hms h
      exact Option.some.inj h ▸ trivial
    · obtain ⟨ms, hms, h⟩ := of_members_bind hrest h
      obtain ⟨answer, -, h⟩ := of_read_bind hms h
      obtain ⟨dialogue, -, h⟩ := of_read_bind hms h
      obtain ⟨origin, -, h⟩ := of_read_bind hms h
      exact Option.some.inj h ▸ trivial
    · cases h

/-! ### Actions -/

instance : HasFloats Action where
  AllFinite
    | .propose _ proposal => AllFinite proposal
    | _ => True

theorem aboutDialogue?_obj (tag : String) (id : DialogueId) :
    aboutDialogue? (.obj [("action", .str tag), ("dialogue_id", encode id)]) = some id := by
  rw [aboutDialogue?]
  exact members_bind rfl (read_eq rfl trivial)

instance : Faithful Action where
  decode_encode _ a h := by
    cases a with
    | cfp peer payload =>
      exact aroundTag_bind rfl <| members_bind rfl <| read_bind rfl trivial <| read_bind rfl trivial rfl
    | propose id proposal =>
      exact aroundTag_bind rfl <| members_bind rfl <| read_bind rfl trivial <| read_bind rfl h rfl
    | message id content =>
      exact aroundTag_bind rfl <| members_bind rfl <| read_bind rfl trivial <|
        read_bind rfl (fun _ _ => trivial) rfl
    | accept id => exact aroundTag_bind rfl (congrArg (Option.map Action.accept) (aboutDialogue?_obj _ id))
    | decline id => exact aroundTag_bind rfl (congrArg (Option.map Action.decline) (aboutDialogue?_obj _ id))
    | complete id =>
      exact aroundTag_bind rfl (congrArg (Option.map Action.complete) (aboutDialogue?_obj _ id))
    | cancel id => exact aroundTag_bind rfl (congrArg (Option.map Action.cancel) (aboutDialogue?_obj _ id))
  allFinite _ _ a hj h := by
    obtain ⟨tag, rest, hrest, h⟩ := of_aroundTag_bind hj h
    dsimp only at h
    split at h
    · obtain ⟨ms, hms, h⟩ := of_members_bind hrest h
      obtain ⟨peer, -, h⟩ := of_read_bind hms h
      obtain ⟨payload, -, h⟩ := of_read_bind hms h
      exact Option.some.inj h ▸ trivial
    · obtain ⟨ms, hms, h⟩ := of_members_bind hrest h
      obtain ⟨id, -, h⟩ := of_read_bind hms h
      obtain ⟨proposal, hproposal, h⟩ := of_read_bind hms h
      exact Option.some.inj h ▸ hproposal
    · obtain ⟨id, -, rfl⟩ := Option.map_eq_some_iff.1 h
      trivial
    · obtain ⟨id, -, rfl⟩ := Option.map_eq_some_iff.1 h
      trivial
    · obtain ⟨ms, hms, h⟩ := of_members_bind hrest h
      obtain ⟨id, -, h⟩ := of_read_bind hms h
      obtain ⟨content, -, h⟩ := of_read_bind hms h
      exact Option.some.inj h ▸ trivial
    · obtain ⟨id, -, rfl⟩ := Option.map_eq_some_iff.1 h
      trivial
    · obtain ⟨id, -, rfl⟩ := Option.map_eq_some_iff.1 h
      trivial
    · cases h

end Negotiation
