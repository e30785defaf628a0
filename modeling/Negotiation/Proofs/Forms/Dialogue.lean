import Negotiation.Forms.Dialogue
import Negotiation.Proofs.Forms.Service

/-!
The forms of addresses, routes, states and messages lose nothing. Numbers are held by the proposals that
messages carry.
-/

namespace Negotiation

open Json

/-! ### Addresses and routes -/

instance : Faithful Address where
  decode_encode _ _ _ :=
    members_bind rfl <| read_bind rfl trivial <| readOptional_bind rfl (fun _ _ => trivial) rfl

instance : Faithful Uri where
  decode_encode _ _ _ :=
    members_bind rfl <| read_bind rfl trivial <| read_bind rfl trivial <| read_bind rfl trivial <|
      read_bind rfl (fun _ _ => trivial) <| read_bind rfl trivial <| read_bind rfl trivial <|
      read_bind rfl trivial rfl

instance : Faithful Direction where
  decode_encode _ d _ := by cases d <;> rfl

instance : Faithful Route where
  decode_encode _ _ _ :=
    members_bind rfl <| read_bind rfl trivial <| read_bind rfl trivial <| read_bind rfl trivial <|
      read_bind rfl trivial <| read_bind rfl trivial rfl

/-! ### States -/

instance : Faithful Step where
  decode_encode _ s _ := by cases s <;> rfl

instance : Faithful CloseReason where
  decode_encode _ r _ := by cases r <;> rfl

instance : Faithful State where
  decode_encode _ s _ := by
    cases s with
    | closed reason => exact decode_map trivial rfl
    | _ => rfl

instance : Faithful Transition where
  decode_encode _ t _ := by
    cases t with
    | step s d => exact read_bind rfl trivial <| read_bind rfl trivial rfl
    | _ => rfl

instance : Faithful Limits where
  decode_encode _ _ _ :=
    members_bind rfl <| readOr_bind rfl trivial <| readOr_bind rfl trivial <| readOr_bind rfl trivial <|
      readOr_bind rfl trivial rfl

/-! ### Messages -/

instance : HasFloats Body where
  AllFinite
    | .propose proposal => AllFinite proposal
    | _ => True

instance : Faithful Body where
  decode_encode _ b h := by
    cases b with
    | cfp payload => exact decode_map trivial rfl
    | propose proposal => exact decode_map h rfl
    | accept => rfl
    | decline => rfl
    | message content => exact decode_map (fun _ _ => trivial) rfl
  allFinite _ _ b hj h := by
    obtain ⟨tag, content, naming, hcontent, h⟩ := of_besideTag_bind hj h
    dsimp only at h
    split at h
    · obtain ⟨payload, -, rfl⟩ := of_decode_map hcontent h
      trivial
    · obtain ⟨proposal, hproposal, rfl⟩ := of_decode_map hcontent h
      exact hproposal
    · split at h <;> cases h
      trivial
    · split at h <;> cases h
      trivial
    · obtain ⟨bytes, -, rfl⟩ := of_decode_map hcontent h
      trivial
    · cases h

instance : HasFloats Message := ⟨fun m => AllFinite m.body⟩

/-- A message is read off its members, whatever else there is. -/
theorem Message.decodeWith_obj {m : Message} (hm : AllFinite m) {ms : Members} (naming : Naming)
    (h : ∀ name, name ≠ "event" → Members.get? ms name = Members.get? m.members name) :
    decodeWith naming (.obj ms) = some m := by
  have hget : ∀ name j, name ≠ "event" → Members.get? m.members name = some j →
      Members.get? ms name = some j :=
    fun name j hne hj => (h name hne).trans hj
  exact read_bind (hget _ _ (by decide) rfl) trivial <| read_bind (hget _ _ (by decide) rfl) trivial <|
    read_bind (hget _ _ (by decide) rfl) trivial <| read_bind (hget _ _ (by decide) rfl) trivial <|
      read_bind (hget _ _ (by decide) rfl) hm <| readOr_bind (hget _ _ (by decide) rfl) trivial <|
        readOr_bind (hget _ _ (by decide) rfl) trivial rfl

instance : Faithful Message where
  decode_encode naming _ h := Message.decodeWith_obj h naming fun _ _ => rfl
  allFinite _ _ m hj h := by
    obtain ⟨ms, hms, h⟩ := of_members_bind hj h
    obtain ⟨answer, -, h⟩ := of_read_bind hms h
    obtain ⟨dialogue, -, h⟩ := of_read_bind hms h
    obtain ⟨origin, -, h⟩ := of_read_bind hms h
    obtain ⟨target, -, h⟩ := of_read_bind hms h
    obtain ⟨body, hbody, h⟩ := of_read_bind hms h
    obtain ⟨sourceUri, -, h⟩ := of_readOr_bind hms trivial h
    obtain ⟨targetUri, -, h⟩ := of_readOr_bind hms trivial h
    exact Option.some.inj h ▸ hbody

instance : HasFloats Outgoing := ⟨fun m => AllFinite m.body⟩

instance : Faithful Outgoing where
  decode_encode _ _ h :=
    members_bind rfl <| read_bind rfl trivial <| read_bind rfl trivial <| read_bind rfl trivial <|
      read_bind rfl trivial <| read_bind rfl h rfl
  allFinite _ _ m hj h := by
    obtain ⟨ms, hms, h⟩ := of_members_bind hj h
    obtain ⟨answer, -, h⟩ := of_read_bind hms h
    obtain ⟨dialogue, -, h⟩ := of_read_bind hms h
    obtain ⟨target, -, h⟩ := of_read_bind hms h
    obtain ⟨route, -, h⟩ := of_read_bind hms h
    obtain ⟨body, hbody, h⟩ := of_read_bind hms h
    exact Option.some.inj h ▸ hbody

end Negotiation
