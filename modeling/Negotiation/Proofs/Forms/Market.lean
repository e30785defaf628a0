import Negotiation.Forms.Market
import Negotiation.Proofs.Forms.Dialogue

/-!
The forms of plans lose nothing. Numbers are held by the places of stations.
-/

namespace Negotiation

open Json

instance : HasFloats StationPlan := ⟨fun s => AllFinite s.latitude ∧ AllFinite s.longitude⟩

instance : Faithful StationPlan where
  decode_encode _ _ h := read_bind rfl trivial <| read_bind rfl trivial <|
    readOptional_bind rfl h.1 <| readOptional_bind rfl h.2 rfl
  allFinite _ j s hj h := by
    cases hj with
    | obj hms =>
      obtain ⟨key, -, h⟩ := of_read_bind hms h
      obtain ⟨price, -, h⟩ := of_read_bind hms h
      obtain ⟨latitude, hlatitude, h⟩ := of_readOptional_bind hms h
      obtain ⟨longitude, hlongitude, h⟩ := of_readOptional_bind hms h
      exact Option.some.inj h ▸ ⟨hlatitude, hlongitude⟩
    | _ => cases h

instance : HasFloats Plan := ⟨fun p => AllFinite p.stations⟩

instance : Faithful Plan where
  decode_encode _ _ h := members_bind rfl <| readOr_bind rfl h <|
    readOr_bind rfl trivial <| readOr_bind rfl trivial rfl
  allFinite _ _ p hj h := by
    obtain ⟨ms, hms, h⟩ := of_members_bind hj h
    obtain ⟨key, -, h⟩ := Option.bind_eq_some_iff.1 h
    obtain ⟨client, -, h⟩ := Option.bind_eq_some_iff.1 h
    obtain ⟨stations, hstations, h⟩ := of_readOr_bind hms (by rintro _ ⟨⟩) h
    obtain ⟨timeout, -, h⟩ := of_readOr_bind hms trivial h
    obtain ⟨limits, -, h⟩ := of_readOr_bind hms trivial h
    exact Option.some.inj h ▸ hstations

end Negotiation
