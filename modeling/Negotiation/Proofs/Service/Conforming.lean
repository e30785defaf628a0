import Negotiation.Proofs.Service.Declaring

/-!
Values under a model. They are accepted just when they conform to it, for every model that comes about;
otherwise the fault that is reported is the first in name order among the attributes, or, when these are
as declared, the least name that is not. Every description fits its own model. Main statement:
`accepted_iff_conforming`.
-/

namespace Negotiation.Description

variable {values : SortedMap String Value} {m : Model} {a : Attribute} {d : Description} {e : SchemaError}
  {k : String}

/-- Values that are as a model declares them. -/
structure Conforms (values : SortedMap String Value) (m : Model) : Prop where
  required : ∀ a ∈ m.attributes, a.required → ∃ v, values.get? a.name = some v
  typed : ∀ a ∈ m.attributes, ∀ v, values.get? a.name = some v → v.type = a.type
  declared : ∀ k v, values.get? k = some v → ∃ a ∈ m.attributes, a.name = k

/-- An attribute whose value is missing or of another type, and how that is reported. -/
inductive Fails (values : SortedMap String Value) (a : Attribute) : SchemaError → Prop
  | missing (hr : a.required) (hn : values.get? a.name = none) : Fails values a (.missingAttribute a.name)
  | mistyped {v : Value} (hv : values.get? a.name = some v) (ht : v.type ≠ a.type) :
      Fails values a (.typeMismatch a.name a.type v.type)

/-- A name that has a value, but no attribute. -/
structure Undeclared (values : SortedMap String Value) (m : Model) (k : String) : Prop where
  present : ∃ v, values.get? k = some v
  unnamed : ∀ a ∈ m.attributes, a.name ≠ k

/-- The fault of values that is reported: that of the least attribute that fails, and otherwise the least
name that is not declared. -/
inductive FirstFault (values : SortedMap String Value) (m : Model) : SchemaError → Prop
  | failing {a : Attribute} {e : SchemaError} (ha : a ∈ m.attributes) (hf : Fails values a e)
      (hleast : ∀ b ∈ m.attributes, b.name < a.name → ∀ e', ¬ Fails values b e') : FirstFault values m e
  | undeclared {k : String} (hnone : ∀ a ∈ m.attributes, ∀ e, ¬ Fails values a e)
      (hk : Undeclared values m k) (hleast : ∀ k', k' < k → ¬ Undeclared values m k') :
      FirstFault values m (.unknownAttribute k)

/-- Values conform when no attribute fails and no name is undeclared. -/
theorem conforms_iff : Conforms values m ↔
    (∀ a ∈ m.attributes, ∀ e, ¬ Fails values a e) ∧ ∀ k, ¬ Undeclared values m k := by
  constructor
  · intro h
    refine ⟨fun a ha e hf => ?_, fun k hk => ?_⟩
    · cases hf with
      | missing hr hn =>
        obtain ⟨v, hv⟩ := h.required a ha hr
        cases hn.symm.trans hv
      | mistyped hv ht => exact ht (h.typed a ha _ hv)
    · obtain ⟨v, hv⟩ := hk.present
      obtain ⟨a, ha, hn⟩ := h.declared k v hv
      exact hk.unnamed a ha hn
  · rintro ⟨hfails, hundeclared⟩
    refine ⟨fun a ha hr => ?_, fun a ha v hv => ?_, fun k v hv => ?_⟩
    · exact Option.ne_none_iff_exists'.1 fun hn => hfails a ha _ (.missing hr hn)
    · exact Decidable.byContradiction fun ht => hfails a ha _ (.mistyped hv ht)
    · exact Decidable.byContradiction fun hno =>
        hundeclared k ⟨⟨v, hv⟩, fun a ha hn => hno ⟨a, ha, hn⟩⟩

/-! ### The fault that is found -/

theorem faultOf_eq_some_iff : faultOf values a = some e ↔ Fails values a e := by
  constructor
  · intro h
    rw [faultOf] at h
    split at h
    · next hn =>
      split at h
      · next hr =>
        cases h
        exact .missing hr hn
      · cases h
    · next v hv =>
      split at h
      · cases h
      · next ht =>
        cases h
        exact .mistyped hv ht
  · intro h
    cases h with
    | missing hr hn => simp only [faultOf, hn, hr, if_true]
    | mistyped hv ht => simp only [faultOf, hv, ht, if_false]

theorem faultOf_eq_none_iff : faultOf values a = none ↔ ∀ e, ¬ Fails values a e := by
  simp only [Option.eq_none_iff_forall_ne_some, ne_eq, faultOf_eq_some_iff]

theorem findSome?_faultOf_eq_none_iff :
    m.attributes.findSome? (faultOf values) = none ↔ ∀ a ∈ m.attributes, ∀ e, ¬ Fails values a e := by
  simp only [List.findSome?_eq_none_iff, faultOf_eq_none_iff]

section Ascending

variable (hm : Model.Ascending m.attributes)
include hm

theorem undeclared_iff : Undeclared values m k ↔ k ∈ values.keys ∧ (m.attribute? k).isNone := by
  rw [SortedMap.mem_keys_iff, Option.isNone_iff_eq_none, Model.attribute?_eq_none_iff hm]
  exact ⟨fun ⟨hv, hn⟩ => ⟨hv, hn⟩, fun ⟨hv, hn⟩ => ⟨hv, hn⟩⟩

theorem find?_undeclared_eq_some_iff :
    (values.keys.find? fun k => (m.attribute? k).isNone) = some k ↔
      Undeclared values m k ∧ ∀ k', k' < k → ¬ Undeclared values m k' := by
  rw [SortedMap.find?_eq_some_iff_of_ascending values.pairwise_keys, ← and_assoc, ← undeclared_iff hm]
  refine and_congr_right fun _ => ⟨fun h k' hlt hk' => ?_, fun h k' hk' hlt hn => ?_⟩
  · obtain ⟨hmem, hn⟩ := (undeclared_iff hm).1 hk'
    exact h k' hmem hlt hn
  · exact h k' hlt ((undeclared_iff hm).2 ⟨hk', hn⟩)

theorem find?_undeclared_eq_none_iff :
    (values.keys.find? fun k => (m.attribute? k).isNone) = none ↔ ∀ k, ¬ Undeclared values m k := by
  simp only [List.find?_eq_none, undeclared_iff hm, not_and]

theorem findSome?_faultOf_eq_some_iff : m.attributes.findSome? (faultOf values) = some e ↔
    ∃ a ∈ m.attributes, Fails values a e ∧
      ∀ b ∈ m.attributes, b.name < a.name → ∀ e', ¬ Fails values b e' := by
  simp only [SortedMap.findSome?_eq_some_iff_of_ascending Attribute.name hm, faultOf_eq_some_iff,
    faultOf_eq_none_iff]

theorem fault?_eq_none_iff : fault? values m = none ↔ Conforms values m := by
  rw [conforms_iff, ← findSome?_faultOf_eq_none_iff, ← find?_undeclared_eq_none_iff hm, fault?]
  cases m.attributes.findSome? (faultOf values) with
  | some e => simp
  | none => simp only [Option.map_eq_none_iff, true_and]

theorem fault?_eq_some_iff : fault? values m = some e ↔ FirstFault values m e := by
  rw [fault?]
  cases hf : m.attributes.findSome? (faultOf values) with
  | some e' =>
    obtain ⟨a, ha, hfails, hleast⟩ := (findSome?_faultOf_eq_some_iff hm).1 hf
    constructor
    · rintro ⟨⟩
      exact .failing ha hfails hleast
    · intro h
      cases h with
      | failing hb hfb hleastb =>
        exact hf.symm.trans ((findSome?_faultOf_eq_some_iff hm).2 ⟨_, hb, hfb, hleastb⟩)
      | undeclared hnone _ _ => exact absurd hfails (hnone a ha e')
  | none =>
    have hnone := findSome?_faultOf_eq_none_iff.1 hf
    rw [Option.map_eq_some_iff]
    constructor
    · rintro ⟨k, hk, rfl⟩
      obtain ⟨hk, hleast⟩ := (find?_undeclared_eq_some_iff hm).1 hk
      exact .undeclared hnone hk hleast
    · intro h
      cases h with
      | failing ha hfa _ => exact absurd hfa (hnone _ ha e)
      | undeclared _ hk hleast => exact ⟨_, (find?_undeclared_eq_some_iff hm).2 ⟨hk, hleast⟩, rfl⟩

end Ascending

/-! ### Checking -/

theorem checked_eq_ok_iff : checked values m = .ok d ↔ fault? values m = none ∧ d = ⟨values, m⟩ := by
  rw [checked]
  cases fault? values m with
  | some e => simp
  | none => simp [eq_comm]

theorem checked_eq_error_iff : checked values m = .error e ↔ fault? values m = some e := by
  rw [checked]
  cases fault? values m with
  | some e' => simp
  | none => simp

/-- Values conform to the model that they generate. -/
theorem conforms_generate (name : String) (values : SortedMap String Value) :
    Conforms values (Model.generate name values) := by
  have hmem : ∀ a ∈ (Model.generate name values).attributes,
      ∃ v, values.get? a.name = some v ∧ a.type = v.type := by
    intro a ha
    obtain ⟨⟨k, v⟩, hkv, rfl⟩ := List.mem_map.1 ha
    exact ⟨v, SortedMap.mem_toList_iff.1 hkv, rfl⟩
  constructor
  · intro a ha _
    obtain ⟨v, hv, -⟩ := hmem a ha
    exact ⟨v, hv⟩
  · intro a ha v hv
    obtain ⟨v', hv', ht⟩ := hmem a ha
    rw [ht, Option.some.inj (hv.symm.trans hv')]
  · intro k v hv
    exact ⟨_, List.mem_map_of_mem (SortedMap.mem_toList_iff.2 hv), rfl⟩

/-- A description that is checked against a model, or has the model that its values generate. -/
inductive Made : Description → Prop
  | checked {values : SortedMap String Value} {m : Model} {d : Description}
      (h : Description.checked values m = .ok d) : Made d
  | generated (values : SortedMap String Value) (name : String) : Made (Description.generated values name)

theorem Made.checked_again (h : d.Made) : Description.checked d.values d.model = .ok d := by
  cases h with
  | checked h =>
    obtain ⟨-, rfl⟩ := checked_eq_ok_iff.1 h
    exact h
  | generated values name =>
    exact checked_eq_ok_iff.2
      ⟨(fault?_eq_none_iff (Model.ascending_generate name values)).2 (conforms_generate name values), rfl⟩

/-- ACCEPTED: under a model that comes about, values make a description just when they conform to the
    model, and the description is of exactly these values and this model. Otherwise the error is that of
    the least attribute whose value is missing or of another type, and if there is none, the least name
    that is not declared. And every description that is made, also with a model that its values generate,
    is made again of its own values and model: with the same values and the same model, of which numbers
    are the same data and are not compared, since one that is not a number does not equal itself. -/
theorem accepted_iff_conforming :
    (∀ (values : SortedMap String Value) (m : Model), m.Built →
      (∀ d, checked values m = .ok d ↔ Conforms values m ∧ d = ⟨values, m⟩) ∧
      ∀ e, checked values m = .error e ↔ FirstFault values m e) ∧
    ∀ d : Description, d.Made → checked d.values d.model = .ok d := by
  refine ⟨fun values m hm => ⟨fun d => ?_, fun e => ?_⟩, fun d => Made.checked_again⟩
  · rw [checked_eq_ok_iff, fault?_eq_none_iff hm.ascending]
  · rw [checked_eq_error_iff, fault?_eq_some_iff hm.ascending]

/-- A book is accepted. A year that is a text is reported before a name that is not declared, though the
name is the lesser of the two. -/
theorem mistyped_before_undeclared :
    let rating : Attribute := { name := "average_rating", type := .double, required := false }
    let title : Attribute := { name := "title", type := .string, required := true }
    let year : Attribute := { name := "year", type := .int, required := true }
    let m : Model := { name := "book", attributes := [rating, title, year] }
    let right : SortedMap String Value := .ofList [("title", .string "It"), ("year", .int 1986)]
    let wrong := (right.insert "year" (.string "1986")).insert "isbn" (.string "0-670-81302-8")
    Model.build "book" [title, year, rating] = .ok m ∧ m.Built ∧
    checked right m = .ok ⟨right, m⟩ ∧ checked wrong m = .error (.typeMismatch "year" .int .string) ∧
    (generated right "").Made ∧ checked right (Model.generate "" right) = .ok (generated right "") := by
  intro rating title year m right wrong
  have hasc : Model.Ascending m.attributes := by
    simp only [Model.Ascending, m, rating, title, year]
    decide
  have hm : Model.build "book" [title, year, rating] = .ok m := Model.build_eq (by decide) hasc
  obtain ⟨hverdict, hagain⟩ := accepted_iff_conforming
  have hright : Conforms right m := by
    refine conforms_iff.2 ⟨fun a ha => faultOf_eq_none_iff.1 ?_, fun k hk => ?_⟩
    · exact (show ∀ a ∈ m.attributes, faultOf right a = none by decide) a ha
    · obtain ⟨v, hv⟩ := hk.present
      have hmem : (k, v) = ("title", .string "It") ∨ (k, v) = ("year", .int 1986) := by
        simpa using SortedMap.mem_of_get?_ofList hv
      rcases hmem with heq | heq <;> cases heq
      · exact hk.unnamed title (by decide) rfl
      · exact hk.unnamed year (by decide) rfl
  have hwrong : FirstFault wrong m (.typeMismatch "year" .int .string) := by
    refine .failing (a := year) (by decide) (.mistyped (v := .string "1986") (by decide) (by decide)) ?_
    exact fun b hb hlt => faultOf_eq_none_iff.1
      ((show ∀ b ∈ m.attributes, b.name < "year" → faultOf wrong b = none by decide) b hb hlt)
  exact ⟨hm, .build hm, ((hverdict right m (.build hm)).1 _).2 ⟨hright, rfl⟩,
    ((hverdict wrong m (.build hm)).2 _).2 hwrong, .generated right "", hagain _ (.generated right "")⟩

end Negotiation.Description
