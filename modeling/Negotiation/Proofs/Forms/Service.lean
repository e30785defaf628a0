import Negotiation.Forms.Service
import Negotiation.Proofs.Json.Faithful

/-!
The forms of services lose nothing. Numbers are held by locations and doubles among the values of a
description, and so by proposals that offer descriptions.
-/

namespace Negotiation

open Json

/-! ### Values -/

instance : Faithful ValueType where
  decode_encode _ t _ := by cases t <;> rfl

instance : HasFloats Location := ⟨fun l => AllFinite l.latitude ∧ AllFinite l.longitude⟩

instance : Faithful Location where
  decode_encode _ _ h := members_bind rfl <| read_bind rfl h.1 <| read_bind rfl h.2 rfl
  allFinite _ _ l hj h := by
    obtain ⟨ms, hms, h⟩ := of_members_bind hj h
    obtain ⟨latitude, hlatitude, h⟩ := of_read_bind hms h
    obtain ⟨longitude, hlongitude, h⟩ := of_read_bind hms h
    exact Option.some.inj h ▸ ⟨hlatitude, hlongitude⟩

instance : HasFloats Value where
  AllFinite
    | .double x => AllFinite x
    | .location l => AllFinite l
    | _ => True

instance : Faithful Value where
  decode_encode _ v h := by
    cases v with
    | bool b => rfl
    | int n => exact decode_map trivial rfl
    | double x => exact decode_map h rfl
    | string s => rfl
    | location l => exact decode_map h rfl
  allFinite _ _ v hj h := by
    obtain ⟨tag, content, naming, hcontent, h⟩ := of_besideTag_bind hj h
    dsimp only at h
    split at h <;> first
      | cases h
      | obtain ⟨x, hx, rfl⟩ := of_decode_map hcontent h
        exact hx

/-! ### Models and descriptions -/

instance : Faithful Attribute where
  decode_encode _ _ _ :=
    members_bind rfl <| read_bind rfl trivial <| read_bind rfl trivial <| read_bind rfl trivial <|
      readOptional_bind rfl (fun _ _ => trivial) rfl

instance : Faithful Model where
  decode_encode _ _ _ := members_bind rfl <| read_bind rfl trivial <| read_bind rfl (fun _ _ => trivial) <|
    readOptional_bind rfl (fun _ _ => trivial) rfl

instance : NeverNull Model where
  encode_ne_null _ _ := nofun

instance : HasFloats Description := ⟨fun d => AllFinite d.values⟩

instance : Faithful Description where
  decode_encode _ _ h := members_bind rfl <| read_bind rfl h <| read_bind rfl trivial rfl
  allFinite _ _ d hj h := by
    obtain ⟨ms, hms, h⟩ := of_members_bind hj h
    obtain ⟨values, hvalues, h⟩ := of_read_bind hms h
    obtain ⟨model, -, h⟩ := of_read_bind hms h
    exact Option.some.inj h ▸ hvalues

/-! ### What is asked for and offered -/

instance : Faithful Query where
  decode_encode _ _ _ :=
    members_bind rfl <| readOptional_bind rfl (fun _ _ => trivial) <|
      read_bind rfl (fun _ _ => trivial) rfl

instance : Faithful Cfp where
  decode_encode _ c _ := by
    cases c with
    | nothing => rfl
    | content bytes => exact decode_map (fun _ _ => trivial) rfl
    | query q => exact decode_map trivial rfl

instance : HasFloats Proposal where
  AllFinite
    | .descriptions ds => AllFinite ds
    | .content _ => True

instance : Faithful Proposal where
  decode_encode _ p h := by
    cases p with
    | descriptions ds => exact decode_map h rfl
    | content bytes => exact decode_map (fun _ _ => trivial) rfl
  allFinite _ _ p hj h := by
    obtain ⟨tag, content, naming, hcontent, h⟩ := of_besideTag_bind hj h
    dsimp only at h
    split at h
    · obtain ⟨ds, hds, rfl⟩ := of_decode_map hcontent h
      exact hds
    · obtain ⟨bytes, -, rfl⟩ := of_decode_map hcontent h
      trivial
    · cases h

end Negotiation
