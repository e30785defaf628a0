import Negotiation.Proofs.Forms.Agent
import Negotiation.Proofs.Forms.Market

/-!
The JSON form loses nothing. What is written of a value with finite numbers reads as that value, and so
what was read is kept when it is written and read again. Main statement: `forms_lose_nothing`.
-/

namespace Negotiation

open Json

/-- Writing and reading change nothing, and so neither does writing and reading again what was read. -/
structure Lossless (α : Type) [Form α] [HasFloats α] : Prop where
  back : ∀ a : α, AllFinite a → decode (encode a) = some a
  again : ∀ (j : Json) (a : α), j.Valid → decode j = some a → decode (encode a) = some a

theorem lossless (α : Type) [Form α] [HasFloats α] [Faithful α] : Lossless α where
  back a h := Faithful.decode_encode .strict a h
  again j a hj h := Faithful.decode_encode .strict a (Faithful.allFinite .strict j a hj h)

/-- LOSSLESS: every event, message sent, action, body, call for proposals, proposal, query, description,
    model, route, address of a route, state, transition and plan whose numbers are finite is read back,
    equal, from the JSON value that it is written to; and whatever is read as one of these from a value
    that JSON can say is read again from what it is then written to. -/
theorem forms_lose_nothing :
    Lossless Event ∧ Lossless Outgoing ∧ Lossless Action ∧ Lossless Body ∧ Lossless Cfp ∧
    Lossless Proposal ∧ Lossless Query ∧ Lossless Description ∧ Lossless Model ∧ Lossless Route ∧
    Lossless Uri ∧ Lossless State ∧ Lossless Transition ∧ Lossless Plan :=
  ⟨lossless _, lossless _, lossless _, lossless _, lossless _, lossless _, lossless _, lossless _,
    lossless _, lossless _, lossless _, lossless _, lossless _, lossless _⟩

/-- An event with a distance comes back, and a plan whose places are given as integers is read again as it
was read. -/
theorem distance_and_places_kept :
    let event : Event := .searchResultWide 1
      [{ agentKey := "bob", coreKey := "core", coreAddress := "host", port := 3333, distance := some 1.5 }]
    let station : Json := .obj
      [("public_key", .str "bob"), ("price", .int 10), ("latitude", .int 52), ("longitude", .int (-13))]
    let j : Json := .obj [("client", .obj [("public_key", .str "alice")]), ("stations", .arr [station])]
    decode (encode event) = some event ∧
    ∃ plan : Plan, decode j = some plan ∧ decode (encode plan) = some plan := by
  intro event station j
  obtain ⟨hevent, -, -, -, -, -, -, -, -, -, -, -, -, hplan⟩ := forms_lose_nothing
  have hfinite : AllFinite event := by
    rintro item hitem x hx
    obtain rfl := List.mem_singleton.1 hitem
    obtain rfl := Option.some.inj hx
    show Float.isFinite 1.5
    decide
  have hint : ∀ n : Int, -100 < n → n < 100 → Valid (.int n) := fun n hlo hhi => .int (by omega) (by omega)
  have hstation : station.Valid := .obj (by simp [Valid.str, hint])
  have hclient : Valid (.obj [("public_key", .str "alice")]) := .obj (by simp [Valid.str])
  have hvalid : j.Valid := .obj (by simp [hclient, Valid.arr, hstation])
  obtain ⟨plan, hread⟩ : ∃ plan : Plan, decode j = some plan := ⟨_, rfl⟩
  exact ⟨hevent.back event hfinite, plan, hread, hplan.again j plan hvalid hread⟩

end Negotiation
