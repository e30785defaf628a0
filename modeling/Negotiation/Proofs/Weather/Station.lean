import Negotiation.Proofs.Service.Model
import Negotiation.Proofs.SortedMap
import Negotiation.Weather.Client

/-!
What a station shows of itself. Its description fits the weather model, wherever it is; its proposal
asks its price; and its measurement can be read.
-/

namespace Negotiation.Weather

/-- The attributes of the weather service in name order. -/
def ascending : List Attribute :=
  [{ name := "air_pressure", type := .bool, required := true
     description := some "Provides air pressure measurements." },
   { name := "humidity", type := .bool, required := true
     description := some "Provides humidity measurements." },
   { name := "location", type := .location, required := false
     description := some "Where the station is." },
   { name := "temperature", type := .bool, required := true
     description := some "Provides temperature measurements." },
   { name := "wind_speed", type := .bool, required := true
     description := some "Provides wind speed measurements." }]

theorem ascending_ascending : Model.Ascending ascending := by
  simp only [Model.Ascending, ascending]
  decide

theorem model_eq : model = { name := "weather_data", attributes := ascending
                             description := some "All possible weather data." } := by
  have hp : attributes.Perm ascending := by decide
  rw [model, Model.build_eq hp ascending_ascending]
  rfl

namespace Station

variable (s : Station)

/-- The names of the values are names of attributes. -/
theorem declared {name : String} (h : name ∈ s.values.keys) : (model.attribute? name).isSome := by
  obtain ⟨a, ha, rfl⟩ : ∃ a ∈ ascending, a.name = name := by
    obtain ⟨v, hv⟩ := SortedMap.mem_keys_iff.1 h
    revert hv
    rw [values]
    cases s.location <;> simp [ascending, SortedMap.ofList, SortedMap.get?_insert] <;> grind
  rw [model_eq, Model.attribute?_eq_some ascending_ascending ha]
  rfl

theorem description_ok : s.description = .ok ⟨s.values, model⟩ := by
  rw [description, Description.checked]
  have hconforms : model.attributes.findSome? (Description.faultOf s.values) = none := by
    rw [model_eq, values]
    cases s.location <;>
      simp [ascending, Description.faultOf, SortedMap.ofList, SortedMap.get?_insert, Value.type]
  have hdeclared : s.values.keys.find? (fun k => (model.attribute? k).isNone) = none :=
    List.find?_eq_none.2 fun k hk => by simpa [Option.isSome_iff_ne_none] using s.declared hk
  rw [Description.fault?, hconforms, hdeclared]
  rfl

theorem priceOf_proposal : Client.priceOf s.proposal = some s.price := rfl

end Station

theorem Measurement.ofBytes?_toBytes : ofBytes? ({} : Measurement).toBytes = some {} := by decide +kernel

end Negotiation.Weather
