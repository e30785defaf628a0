import Negotiation.Proofs.Route.Uri
import Negotiation.Proofs.Text.Parts

/-!
What is read as a URI. Seven parts are needed; with fewer nobody is named. The parts hold no slashes, empty
namespaces are passed over and colons are cut off the protocol, so whatever names somebody is well-formed:
the URIs that are read are exactly the well-formed ones, and the text of such a URI reads as the URI. Main
statement: `read_back_iff_wellFormed`.
-/

namespace Negotiation.Uri

variable {s : String} {c : Char} {ps : List String}

/-! ### Protocols -/

theorem mem_of_mem_trimColons (h : c ∈ (trimColons s).toList) : c ∈ s.toList := by
  rw [trimColons, String.toList_ofList, List.mem_reverse] at h
  exact List.mem_reverse.1 ((List.dropWhile_sublist _).subset h)

theorem getLast?_trimColons (s : String) : (trimColons s).toList.getLast? ≠ some ':' := by
  rw [trimColons, String.toList_ofList, List.getLast?_reverse]
  intro h
  have hkept := List.head?_dropWhile_not (fun c : Char => decide (c = ':')) s.toList.reverse
  rw [h] at hkept
  simp at hkept

/-! ### Parts -/

/-- Too few parts name nobody. -/
theorem ofParts_of_lt (h : ps.length < 7) : ofParts ps = nobody := by
  rw [ofParts.eq_def]
  split
  · next protocol ignored coreUri coreKey rest =>
    split
    · next label agentKey ns nss hrest =>
      have hlen := congrArg List.length hrest
      simp only [List.length_cons, List.length_reverse] at h hlen
      omega
    · rfl
  · rfl

/-- Seven parts or more name somebody: four stand at the front, two at the back, and those between them
that are not empty are the namespaces. -/
theorem ofParts_of_le (h : 7 ≤ ps.length) : ∃ protocol ignored coreUri coreKey ns agentKey label,
    ps = protocol :: ignored :: coreUri :: coreKey :: (ns ++ [agentKey, label]) ∧
    ofParts ps = { protocol := trimColons protocol, coreUri, coreKey, agentKey, label,
                   namespaces := ns.filter (· ≠ "") } := by
  obtain ⟨protocol, ignored, coreUri, coreKey, rest, rfl⟩ : ∃ protocol ignored coreUri coreKey rest,
      ps = protocol :: ignored :: coreUri :: coreKey :: rest := by
    match ps, h with
    | protocol :: ignored :: coreUri :: coreKey :: rest, _ => exact ⟨_, _, _, _, rest, rfl⟩
  have hthree : 3 ≤ rest.reverse.length := by
    simp only [List.length_cons] at h
    rw [List.length_reverse]
    omega
  obtain ⟨label, agentKey, ns, nss, hrest⟩ : ∃ label agentKey ns nss,
      rest.reverse = label :: agentKey :: ns :: nss := by
    match rest.reverse, hthree with
    | label :: agentKey :: ns :: nss, _ => exact ⟨_, _, _, _, rfl⟩
  refine ⟨protocol, ignored, coreUri, coreKey, (ns :: nss).reverse, agentKey, label, ?_, ?_⟩
  · rw [← List.reverse_reverse rest, hrest]
    simp
  · simp only [ofParts, hrest]

theorem wellFormed_ofParts (h : 7 ≤ ps.length) (hps : ∀ p ∈ ps, '/' ∉ p.toList) :
    (ofParts ps).WellFormed := by
  obtain ⟨protocol, ignored, coreUri, coreKey, ns, agentKey, label, rfl, hread⟩ := ofParts_of_le h
  simp only [List.forall_mem_cons, List.forall_mem_append, List.not_mem_nil, false_imp_iff,
    implies_true, and_true] at hps
  obtain ⟨hprotocol, -, hcoreUri, hcoreKey, hns, hagentKey, hlabel⟩ := hps
  rw [hread]
  exact {
    whole := rfl
    protocol := fun hm => hprotocol (mem_of_mem_trimColons hm)
    plain := getLast?_trimColons protocol
    coreUri := hcoreUri
    coreKey := hcoreKey
    namespaces := fun p hp => by
      obtain ⟨hm, hne⟩ := List.mem_filter.1 hp
      exact ⟨of_decide_eq_true hne, hns p hm⟩
    agentKey := hagentKey
    label := hlabel }

/-! ### Texts -/

theorem parse_of_lt (h : (Parts.ofText s).length < 7) : parse s = nobody := ofParts_of_lt h

theorem wellFormed_parse (h : 7 ≤ (Parts.ofText s).length) : (parse s).WellFormed :=
  wellFormed_ofParts h fun _ => Parts.not_mem_of_mem_ofText

/-- Nobody is written as the empty text, and read from it. -/
theorem parse_text_nobody : parse nobody.text = nobody := parse_of_lt (by decide)

theorem empty_parse_iff (s : String) : (parse s).empty = true ↔ (Parts.ofText s).length < 7 := by
  refine ⟨fun h => Nat.not_le.1 fun hlen => ?_, fun h => congrArg Uri.empty (parse_of_lt h)⟩
  have hwhole := (wellFormed_parse hlen).whole
  rw [h] at hwhole
  cases hwhole

theorem wellFormed_of_parse (h : (parse s).empty = false) : (parse s).WellFormed := by
  refine wellFormed_parse (Nat.not_lt.1 fun hlen => ?_)
  rw [(empty_parse_iff s).2 hlen] at h
  cases h

/-- READING BACK: a URI that is not flagged as empty is read back from its text exactly when it is
    well-formed. Whatever text is read, the URI is read back from its own text; it is empty exactly when the
    text has fewer than seven parts, of which there is one more than slashes, and well-formed otherwise. -/
theorem read_back_iff_wellFormed :
    (∀ u : Uri, u.empty = false → (parse u.text = u ↔ u.WellFormed)) ∧
    ∀ s : String, parse (parse s).text = parse s ∧
      ((parse s).empty = true ↔ (Parts.ofText s).length < 7) ∧
      (Parts.ofText s).length = s.toList.count '/' + 1 ∧
      ((parse s).empty = false → (parse s).WellFormed) := by
  refine ⟨fun u hu => ⟨fun hread => ?_, parse_text⟩, fun s =>
    ⟨?_, empty_parse_iff s, Parts.length_ofText s, wellFormed_of_parse⟩⟩
  · have hwhole : (parse u.text).empty = false := by rw [hread, hu]
    exact hread ▸ wellFormed_of_parse hwhole
  · by_cases hlen : (Parts.ofText s).length < 7
    · rw [parse_of_lt hlen, parse_text_nobody]
    · exact parse_text (wellFormed_parse (Nat.not_lt.1 hlen))

/-- A colon at the end of the protocol does not survive, and neither does an empty namespace; the URI that is
read instead names somebody, is well-formed and is read back. -/
theorem lost_in_text :
    let u : Uri :=
      { protocol := "tcp:", coreUri := "core:1", namespaces := ["market", ""], agentKey := "bob" }
    u.empty = false ∧ parse u.text ≠ u ∧ (parse u.text).namespaces = ["market"] ∧
      (parse u.text).empty = false ∧ (parse u.text).WellFormed ∧
      parse (parse u.text).text = parse u.text := by
  intro u
  obtain ⟨hback, hread⟩ := read_back_iff_wellFormed
  obtain ⟨hagain, -, -, hwell⟩ := hread u.text
  have hwhole : (parse u.text).empty = false := by decide +kernel
  refine ⟨rfl, fun h => ?_, by decide +kernel, hwhole, hwell hwhole, hagain⟩
  exact ((hback u rfl).1 h).plain (by decide)

end Negotiation.Uri
