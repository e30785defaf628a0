import Negotiation.Dialogue.Failure
import Negotiation.Proofs.Route.Uri
import Negotiation.Proofs.Text.Parts

/-!
Texts of addresses. A text is read as an address if it has one part or two and the first is not empty; a
second part that is empty counts as no label, so every well-formed address is read from its text, and one
without a label also from its text with a slash behind it. Nothing else is read (`parse?_eq_some_iff`). Main
statement: `parsed_exactly`.
-/

namespace Negotiation.Address

variable {s : String} {a : Address}

/-- An address that can be told from its text: its key and its label, if there is one, are not empty and
hold no slash. -/
structure WellFormed (a : Address) : Prop where
  key : PlainKey a.key
  label : ∀ label, a.label = some label → PlainKey label

/-! ### Parts -/

theorem text_one (key : String) : Parts.text [key] = key := String.ofList_toList

theorem text_two (key label : String) : Parts.text [key, label] = key ++ "/" ++ label := by
  rw [← String.toList_inj]
  have hslash : "/".toList = ['/'] := rfl
  simp [Parts.text, Parts.join, hslash]

theorem parse?_text_one {key : String} (h : PlainKey key) : parse? (Parts.text [key]) = some { key } := by
  have hparts : Parts.ofText (Parts.text [key]) = [key] :=
    Parts.ofText_text (by simpa using h.plain)
  rw [parse?, hparts]
  exact if_neg h.named

theorem parse?_text_two {key label : String} (h : PlainKey key) (hl : '/' ∉ label.toList) :
    parse? (Parts.text [key, label]) = some { key, label := labelOf label } := by
  have hparts : Parts.ofText (Parts.text [key, label]) = [key, label] :=
    Parts.ofText_text (by simpa using ⟨h.plain, hl⟩)
  rw [parse?, hparts]
  exact if_neg h.named

/-! ### Reading -/

/-- What is read is well-formed, and was its text, or its text with a slash where a label could stand. -/
theorem of_parse? (h : parse? s = some a) :
    a.WellFormed ∧ (s = a.text ∨ a.label = none ∧ s = a.text ++ "/") := by
  have hplain : ∀ p ∈ Parts.ofText s, '/' ∉ p.toList := fun _ => Parts.not_mem_of_mem_ofText
  have hs : Parts.text (Parts.ofText s) = s := Parts.text_ofText s
  rw [parse?] at h
  split at h
  · next key hparts =>
    rw [hparts] at hplain hs
    split at h
    · cases h
    · next hnamed =>
      cases h
      rw [text_one] at hs
      exact ⟨⟨⟨hnamed, hplain key (by simp)⟩, by rintro label ⟨⟩⟩, .inl hs.symm⟩
  · next key label hparts =>
    rw [hparts] at hplain hs
    split at h
    · cases h
    · next hnamed =>
      cases h
      rw [text_two] at hs
      have hkey : PlainKey key := ⟨hnamed, hplain key (by simp)⟩
      by_cases hl : label = ""
      · subst hl
        exact ⟨⟨hkey, by rintro label ⟨⟩⟩, .inr ⟨rfl, hs.symm.trans (String.append_empty ..)⟩⟩
      · have hlabel : labelOf label = some label := if_neg hl
        rw [hlabel]
        refine ⟨⟨hkey, ?_⟩, .inl hs.symm⟩
        rintro l ⟨⟩
        exact ⟨hl, hplain label (by simp)⟩
  · cases h

theorem WellFormed.parse?_text (h : a.WellFormed) : parse? a.text = some a := by
  obtain ⟨key, label⟩ := a
  cases label with
  | none =>
    have hread := parse?_text_one h.key
    rwa [text_one] at hread
  | some label =>
    obtain ⟨hnamed, hplain⟩ := h.label label rfl
    have hread := parse?_text_two h.key hplain
    rwa [text_two, labelOf, if_neg hnamed] at hread

theorem WellFormed.parse?_text_slash (h : a.WellFormed) (hl : a.label = none) :
    parse? (a.text ++ "/") = some a := by
  obtain ⟨key, label⟩ := a
  obtain rfl : label = none := hl
  have hread : parse? (Parts.text [key, ""]) = some { key } := parse?_text_two h.key List.not_mem_nil
  rwa [text_two, String.append_empty] at hread

/-- The texts that are read as an address. -/
theorem parse?_eq_some_iff :
    parse? s = some a ↔ a.WellFormed ∧ (s = a.text ∨ a.label = none ∧ s = a.text ++ "/") := by
  refine ⟨of_parse?, ?_⟩
  rintro ⟨h, rfl | ⟨hl, rfl⟩⟩
  · exact h.parse?_text
  · exact h.parse?_text_slash hl

theorem ofList_ne_empty_iff {cs : List Char} : String.ofList cs ≠ "" ↔ cs ≠ [] := by
  rw [ne_eq, ← String.toList_eq_nil_iff, String.toList_ofList]

/-- One part or two are needed, and a key. -/
theorem exists_parse?_iff (s : String) : (∃ a, parse? s = some a) ↔
    s.toList.count '/' ≤ 1 ∧ s.toList.takeWhile (· ≠ '/') ≠ [] := by
  have hlen := Parts.length_ofText s
  have hhead := Parts.head?_ofText s
  rw [parse?]
  match hparts : Parts.ofText s with
  | [] => exact absurd hparts (Parts.ofText_ne_nil s)
  | [key] =>
    rw [hparts] at hlen hhead
    obtain rfl := Option.some.inj hhead
    have hcount : s.toList.count '/' ≤ 1 := by simp only [List.length_singleton] at hlen; omega
    rw [and_iff_right hcount, ← ofList_ne_empty_iff]
    dsimp only
    split
    · next hkey => exact iff_of_false (by rintro ⟨a, ⟨⟩⟩) (not_not_intro hkey)
    · next hkey => exact iff_of_true ⟨_, rfl⟩ hkey
  | [key, label] =>
    rw [hparts] at hlen hhead
    obtain rfl := Option.some.inj hhead
    have hcount : s.toList.count '/' ≤ 1 := by simp only [List.length_cons, List.length_nil] at hlen; omega
    rw [and_iff_right hcount, ← ofList_ne_empty_iff]
    dsimp only
    split
    · next hkey => exact iff_of_false (by rintro ⟨a, ⟨⟩⟩) (not_not_intro hkey)
    · next hkey => exact iff_of_true ⟨_, rfl⟩ hkey
  | _ :: _ :: _ :: _ =>
    rw [hparts] at hlen
    have hcount : ¬ s.toList.count '/' ≤ 1 := by simp only [List.length_cons] at hlen; omega
    exact iff_of_false (by rintro ⟨a, ⟨⟩⟩) fun h => hcount h.1

/-! ### Verdicts -/

theorem parse_eq_ok_iff : parse s = .ok a ↔ parse? s = some a := by
  rw [parse]
  cases parse? s <;> simp

theorem eq_of_parse_error {f : Failure} (h : parse s = .error f) : f = .invalidAddress s := by
  rw [parse] at h
  split at h
  · cases h
  · exact (Except.error.inj h).symm

/-- A text does not end with a slash when its address is well-formed. -/
theorem WellFormed.getLast?_text (h : a.WellFormed) : a.text.toList.getLast? ≠ some '/' := by
  obtain ⟨key, label⟩ := a
  cases label with
  | none => exact fun hlast => h.key.plain (List.mem_of_getLast? hlast)
  | some label =>
    obtain ⟨hnamed, hplain⟩ := h.label label rfl
    have hlast : (key ++ "/" ++ label).toList.getLast? = label.toList.getLast? := by
      rw [String.toList_append, List.getLast?_append, Option.or_of_isSome]
      exact List.getLast?_isSome.2 fun hnil => hnamed (String.toList_eq_nil_iff.1 hnil)
    rw [text, hlast]
    exact fun hslash => hplain (List.mem_of_getLast? hslash)

/-- EXACT TEXTS: a text is read as an address exactly when it holds at most one slash and something stands
    before it; the text of the address is then the text that was read, without the slash if it ends with
    one. Otherwise the failure carries the text. An address is read back from its own text exactly when it
    is well-formed. -/
theorem parsed_exactly :
    (∀ s : String,
      ((∃ a, parse s = .ok a) ↔ s.toList.count '/' ≤ 1 ∧ s.toList.takeWhile (· ≠ '/') ≠ []) ∧
      (∀ a, parse s = .ok a → if s.toList.getLast? = some '/' then a.text ++ "/" = s else a.text = s) ∧
      ∀ f, parse s = .error f → f = .invalidAddress s) ∧
    ∀ a : Address, parse a.text = .ok a ↔ a.WellFormed := by
  refine ⟨fun s => ⟨?_, fun a h => ?_, fun f => eq_of_parse_error⟩, fun a => ?_⟩
  · simp only [parse_eq_ok_iff]
    exact exists_parse?_iff s
  · obtain ⟨hwell, rfl | ⟨-, rfl⟩⟩ := parse?_eq_some_iff.1 (parse_eq_ok_iff.1 h)
    · rw [if_neg hwell.getLast?_text]
    · rw [if_pos (by rw [String.toList_append]; exact List.getLast?_concat ..)]
  · exact parse_eq_ok_iff.trans ⟨fun h => (parse?_eq_some_iff.1 h).1, WellFormed.parse?_text⟩

/-- An address with an empty label, or with a slash in its key, has a text of its own that reads as another
address; with a slash behind a key the text that is read is longer than the text of the address. -/
theorem told_apart :
    let a : Address := { key := "alice", label := some "" }
    let b : Address := { key := "alice/weather" }
    parse a.text = .ok (.ofKey "alice") ∧ parse a.text ≠ .ok a ∧
    parse b.text = .ok ((ofKey "alice").withLabel "weather") ∧ parse b.text ≠ .ok b ∧
    (ofKey "alice").text ++ "/" = a.text ∧ (ofKey "alice").WellFormed := by
  intro a b
  obtain ⟨hread, hback⟩ := parsed_exactly
  have ha : parse a.text = .ok (.ofKey "alice") := parse_eq_ok_iff.2 (by decide +kernel)
  have hshown := (hread a.text).2.1 _ ha
  have hslash : a.text.toList.getLast? = some '/' := by decide +kernel
  rw [if_pos hslash] at hshown
  refine ⟨ha, fun h => ?_, parse_eq_ok_iff.2 (by decide +kernel), fun h => ?_, hshown,
    (hback _).1 (parse_eq_ok_iff.2 (by decide +kernel))⟩
  · exact (((hback a).1 h).label "" rfl).named rfl
  · exact ((hback b).1 h).key.plain (by decide)

end Negotiation.Address
