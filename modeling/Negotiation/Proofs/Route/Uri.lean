import Negotiation.Dialogue.Message

/-!
Texts of URIs. The text of a URI is its parts with slashes between them, the missing namespaces being
one empty part. So a URI whose parts hold no slash is read back from its text (`parse_text`), and what
is sent from one agent straight to another arrives by the route by which it was sent (`route_delivered`).
-/

namespace Negotiation

namespace Parts

theorem join_append {p : List Char} {ps qs : List (List Char)} (hq : qs ≠ []) :
    join (p :: ps ++ qs) = join (p :: ps) ++ '/' :: join qs := by
  induction ps generalizing p with
  | nil =>
    obtain ⟨q, qs, rfl⟩ := List.exists_cons_of_ne_nil hq
    rfl
  | cons p' ps ih =>
    show p ++ '/' :: join (p' :: ps ++ qs) = p ++ '/' :: join (p' :: ps) ++ '/' :: join qs
    rw [ih, List.append_assoc, List.cons_append]

/-- Parts without slashes are read back from their text. -/
theorem ofText_text {p : String} {ps : List String} (h : ∀ q ∈ p :: ps, '/' ∉ q.toList) :
    ofText (text (p :: ps)) = p :: ps := by
  have hcut : cut (join (p.toList :: ps.map String.toList)) = p.toList :: ps.map String.toList :=
    cut_join (List.forall_mem_map.2 h : ∀ x ∈ (p :: ps).map String.toList, '/' ∉ x)
  rw [ofText, text, String.toList_ofList, List.map_cons, hcut, ← List.map_cons, List.map_map]
  simp [Function.comp_def]

end Parts

namespace Uri

/-- A URI that can be told from its text: it names somebody, no part of it holds a slash, its namespaces
are not empty, and its protocol does not end with a colon. -/
structure WellFormed (u : Uri) : Prop where
  whole : u.empty = false
  protocol : '/' ∉ u.protocol.toList
  plain : u.protocol.toList.getLast? ≠ some ':'
  coreUri : '/' ∉ u.coreUri.toList
  coreKey : '/' ∉ u.coreKey.toList
  namespaces : ∀ ns ∈ u.namespaces, ns ≠ "" ∧ '/' ∉ ns.toList
  agentKey : '/' ∉ u.agentKey.toList
  label : '/' ∉ u.label.toList

/-- The namespaces as parts of the text; there is always one. -/
def namespaceParts (u : Uri) : List String := if u.namespaces = [] then [""] else u.namespaces

/-- The parts of the text of a URI. -/
def parts (u : Uri) : List String :=
  (u.protocol ++ ":") :: "" :: u.coreUri :: u.coreKey :: (u.namespaceParts ++ [u.agentKey, u.label])

theorem namespaceParts_ne_nil (u : Uri) : u.namespaceParts ≠ [] := by
  rw [namespaceParts]
  split
  · simp
  · next h => exact h

theorem text_namespaceParts (u : Uri) : Parts.text u.namespaceParts = Parts.text u.namespaces := by
  rw [namespaceParts]
  split
  · next h => rw [h]; rfl
  · rfl

theorem text_eq (u : Uri) (h : u.empty = false) : u.text = Parts.text u.parts := by
  obtain ⟨ns, nss, hns⟩ := List.exists_cons_of_ne_nil u.namespaceParts_ne_nil
  have hback : Parts.join ((ns :: nss).map String.toList ++ [u.agentKey.toList, u.label.toList]) =
      Parts.join ((ns :: nss).map String.toList) ++ '/' :: (u.agentKey.toList ++ '/' :: u.label.toList) :=
    Parts.join_append (by simp)
  have hcolon : "://".toList = [':', '/', '/'] := rfl
  have hslash : "/".toList = ['/'] := rfl
  rw [← String.toList_inj, text, h, ← text_namespaceParts, parts, hns]
  simp only [List.map_cons, List.cons_append] at hback
  simp [Parts.text, Parts.join, hback, hcolon, hslash]

theorem trimColons_append {s : String} (h : s.toList.getLast? ≠ some ':') : trimColons (s ++ ":") = s := by
  have hback : ∀ c ∈ s.toList.reverse.head?, c ≠ ':' := by
    rintro c hc rfl
    exact h (List.head?_reverse ▸ hc)
  have hkeep : s.toList.reverse.dropWhile (· = ':') = s.toList.reverse := by
    cases hr : s.toList.reverse with
    | nil => rfl
    | cons c cs =>
      have hc : c ≠ ':' := hback c (by rw [hr]; rfl)
      simp [hc]
  have hcolon : ":".toList = [':'] := rfl
  rw [trimColons, String.toList_append, hcolon, List.reverse_append, List.reverse_singleton,
    List.singleton_append, List.dropWhile_cons_of_pos (by simp), hkeep, List.reverse_reverse,
    String.ofList_toList]

theorem ofParts_parts {u : Uri} (h : u.WellFormed) : ofParts u.parts = u := by
  obtain ⟨ns, nss, hns⟩ := List.exists_cons_of_ne_nil (mt List.reverse_eq_nil_iff.1 u.namespaceParts_ne_nil)
  have hnamespaces : (ns :: nss).reverse.filter (· ≠ "") = u.namespaces := by
    rw [← hns, List.reverse_reverse, namespaceParts]
    split
    · next hn => rw [hn]; rfl
    · exact List.filter_eq_self.2 fun ns hm => decide_eq_true (h.namespaces ns hm).1
  rw [parts, ofParts, List.reverse_append, hns]
  show Uri.mk _ _ _ _ _ _ _ = _
  rw [trimColons_append h.plain, hnamespaces, ← h.whole]

/-- READING: a well-formed URI is read back from its text. -/
theorem parse_text {u : Uri} (h : u.WellFormed) : parse u.text = u := by
  have hnamespaces : ∀ ns ∈ u.namespaceParts, '/' ∉ ns.toList := by
    rw [namespaceParts]
    split
    · simp
    · exact fun ns hm => (h.namespaces ns hm).2
  have hprotocol : '/' ∉ (u.protocol ++ ":").toList := by
    rw [String.toList_append, List.mem_append, not_or]
    exact ⟨h.protocol, by decide⟩
  have hparts : ∀ p ∈ u.parts, '/' ∉ p.toList := by
    simp only [parts, List.forall_mem_cons, List.forall_mem_append, List.not_mem_nil, false_imp_iff,
      implies_true, and_true]
    exact ⟨hprotocol, by decide, h.coreUri, h.coreKey, hnamespaces, h.agentKey, h.label⟩
  rw [parse, text_eq u h.whole, parts, Parts.ofText_text hparts, ← parts, ofParts_parts h]

theorem wellFormed_named {key label : String} (hk : '/' ∉ key.toList) (hl : '/' ∉ label.toList) :
    WellFormed { agentKey := key, label } where
  whole := rfl
  protocol := show '/' ∉ "tcp".toList by decide
  plain := show "tcp".toList.getLast? ≠ some ':' by decide
  coreUri := List.not_mem_nil
  coreKey := List.not_mem_nil
  namespaces _ h := absurd h List.not_mem_nil
  agentKey := hk
  label := hl

theorem address?_named {key : String} (h : key ≠ "") (label : String) :
    address? { agentKey := key, label } = some ((Address.ofKey key).withLabel label) := by
  rw [address?, if_neg (by simpa using h)]
  rfl

/-- The URI of an agent counts, whatever the label, where that agent is expected. -/
theorem namingOr_named {a : Address} (h : a.key ≠ "") (label : String) :
    namingOr { agentKey := a.key, label } a = { agentKey := a.key, label } := by
  rw [namingOr, address?_named h]
  exact if_pos (decide_eq_true rfl)

end Uri

/-! ### Straight routes -/

/-- A key that names somebody and can be part of a text. -/
structure Address.PlainKey (key : String) : Prop where
  named : key ≠ ""
  plain : '/' ∉ key.toList

namespace Route

/-- The route from one agent straight to another, about a label. -/
def lane (source target label : String) : Route where
  source := { agentKey := source, label }
  target := { agentKey := target, label }
  direct := true
  direction := .outbound
  service := label

/-- A direct route says its label on both ends. -/
theorem towards_eq_lane (home peer : Address) :
    towards home peer true = lane home.key peer.key (peer.label.getD "") := rfl

/-- The way back leads along the same lane. -/
theorem swap_lane (source target label : String) :
    swap { lane source target label with direction := .inbound } = lane target source label := rfl

theorem received_lane {origin home : Address} {label : String} (ho : Address.PlainKey origin.key)
    (hh : Address.PlainKey home.key) (hl : '/' ∉ label.toList) :
    let r := lane origin.key home.key label
    received origin home r.source.text r.target.text = { r with direction := .inbound } := by
  intro r
  have hsource : Uri.parse r.source.text = r.source := Uri.parse_text (Uri.wellFormed_named ho.plain hl)
  have htarget : Uri.parse r.target.text = r.target := Uri.parse_text (Uri.wellFormed_named hh.plain hl)
  rw [received, hsource, htarget]
  simp only [r, lane, Uri.namingOr_named ho.named, Uri.namingOr_named hh.named]

end Route

namespace Outgoing

variable {o : Outgoing} {key label : String} {home : Address}

/-- The sender is told with the label of the route. -/
theorem originFor_lane {target : String} (hk : key ≠ "") (ho : o.route = .lane key target label) :
    o.originFor (.ofKey key) = (Address.ofKey key).withLabel label := by
  have horigin : o.route.origin? = some ((Address.ofKey key).withLabel label) :=
    ho ▸ Uri.address?_named hk label
  rw [originFor, horigin]
  exact if_pos (decide_eq_true rfl)

/-- HOP: a message arrives by the route by which it was sent. -/
theorem route_delivered (hk : Address.PlainKey key) (hh : Address.PlainKey home.key)
    (hl : '/' ∉ label.toList) (ho : o.route = .lane key home.key label) :
    (o.delivered (.ofKey key)).route home = { o.route with direction := .inbound } := by
  have horigin : (o.originFor (.ofKey key)).key = key := congrArg Address.key (originFor_lane hk.named ho)
  have hreceived : Route.received (o.originFor (.ofKey key)) home o.route.source.text o.route.target.text =
      { o.route with direction := .inbound } := by
    have := Route.received_lane (horigin.symm ▸ hk) hh hl
    rwa [horigin, ← ho] at this
  exact hreceived

end Outgoing

end Negotiation
