import Mathlib.Data.List.Nodup
import Negotiation.Proofs.Service.Model

/-!
Declaring attributes. Attributes make a model just when no name is declared twice. The model then holds
them in name order, whatever the order in which they were declared, and finds each by its name; otherwise
the least name that is declared twice is reported, again in whatever order. Main statement:
`declared_in_any_order`.
-/

namespace Negotiation.Model

variable {as bs : List Attribute} {name n : String} {m : Model} {e : SchemaError}

/-- A name that more than one of some attributes has. -/
def Repeats (as : List Attribute) (n : String) : Prop := 2 ≤ (as.map (·.name)).count n

instance : Decidable (Repeats as n) := inferInstanceAs (Decidable (2 ≤ (as.map (·.name)).count n))

/-- The least name that more than one of some attributes has. -/
structure LeastRepeated (as : List Attribute) (n : String) : Prop where
  repeats : Repeats as n
  least : ∀ n', Repeats as n' → n ≤ n'

theorem Repeats.mem (h : Repeats as n) : ∃ a ∈ as, a.name = n :=
  List.mem_map.1 (List.count_pos_iff.1 (Nat.lt_of_lt_of_le Nat.two_pos h))

theorem Repeats.perm (h : Repeats as n) (hp : as.Perm bs) : Repeats bs n := by
  rwa [Repeats, ← (hp.map (·.name)).count_eq n]

theorem nodup_iff_not_repeats : (as.map (·.name)).Nodup ↔ ∀ n, ¬ Repeats as n := by
  rw [List.nodup_iff_count_le_one]
  exact forall_congr' fun n => (Nat.not_lt (a := 1)).symm

theorem LeastRepeated.perm (h : LeastRepeated as n) (hp : as.Perm bs) : LeastRepeated bs n :=
  ⟨h.repeats.perm hp, fun n' hn' => h.least n' (hn'.perm hp.symm)⟩

theorem LeastRepeated.unique {n' : String} (h : LeastRepeated as n) (h' : LeastRepeated as n') : n = n' :=
  Std.le_antisymm (h.least n' h'.repeats) (h'.least n h.repeats)

theorem Ascending.nodup (h : Ascending as) : (as.map (·.name)).Nodup :=
  List.pairwise_map.2 (h.imp Std.ne_of_lt)

/-! ### Scanning for a name that stands twice -/

/-- Attributes in name order, those of one name side by side. -/
def Ordered (as : List Attribute) : Prop := as.Pairwise fun a b => a.name ≤ b.name

theorem ascending_of_repeated?_eq_none (h : Ordered as) (hr : repeated? as = none) : Ascending as := by
  induction as with
  | nil => exact .nil
  | cons a rest ih =>
    cases rest with
    | nil => exact List.pairwise_singleton ..
    | cons b rest =>
      obtain ⟨ha, hrest⟩ := List.pairwise_cons.1 h
      rw [repeated?] at hr
      split at hr
      · cases hr
      · next hne =>
        have hab : a.name < b.name := Std.lt_of_le_of_ne (ha b List.mem_cons_self) hne
        have hasc : Ascending (b :: rest) := ih hrest hr
        refine List.pairwise_cons.2 ⟨fun c hc => ?_, hasc⟩
        rcases List.mem_cons.1 hc with rfl | hc
        · exact hab
        · exact Std.lt_trans hab ((List.pairwise_cons.1 hasc).1 c hc)

/-- Behind a name that does not stand twice in a row it does not stand again. -/
theorem Ordered.not_mem {a b : Attribute} {rest : List Attribute} (h : Ordered (a :: b :: rest))
    (hne : a.name ≠ b.name) : a.name ∉ (b :: rest).map (·.name) := by
  obtain ⟨ha, hrest⟩ := List.pairwise_cons.1 h
  intro hmem
  obtain ⟨c, hc, heq⟩ := List.mem_map.1 hmem
  have hbc : b.name ≤ c.name := by
    rcases List.mem_cons.1 hc with rfl | hc
    · exact Std.le_refl _
    · exact (List.pairwise_cons.1 hrest).1 c hc
  exact hne (Std.le_antisymm (ha b List.mem_cons_self) (heq ▸ hbc))

theorem leastRepeated_of_repeated? (h : Ordered as) (hr : repeated? as = some n) : LeastRepeated as n := by
  induction as with
  | nil => cases hr
  | cons a rest ih =>
    cases rest with
    | nil => cases hr
    | cons b rest =>
      obtain ⟨ha, hrest⟩ := List.pairwise_cons.1 h
      rw [repeated?] at hr
      split at hr
      · next heq =>
        obtain rfl := Option.some.inj hr
        refine ⟨by simp [Repeats, heq], fun n' hn' => ?_⟩
        obtain ⟨c, hc, rfl⟩ := hn'.mem
        rcases List.mem_cons.1 hc with rfl | hc
        · exact Std.le_refl _
        · exact ha c hc
      · next hne =>
        obtain ⟨hrep, hleast⟩ := ih hrest hr
        -- the first name stands once, so it is not among those that count
        have honce : ((b :: rest).map (·.name)).count a.name = 0 := List.count_eq_zero.2 (h.not_mem hne)
        refine ⟨Nat.le_trans hrep List.count_le_count_cons, fun n' hn' => hleast n' ?_⟩
        have hn : a.name ≠ n' := by
          rintro rfl
          rw [Repeats, List.map_cons, List.count_cons_self, honce] at hn'
          omega
        rwa [Repeats, List.map_cons, List.count_cons_of_ne hn] at hn'

/-! ### Building -/

theorem perm_byName (as : List Attribute) : (byName as).Perm as := List.mergeSort_perm as _

theorem ordered_byName (as : List Attribute) : Ordered (byName as) :=
  SortedMap.pairwise_mergeSort_key Attribute.name as

/-- The model of attributes is the one that holds them in ascending name order. -/
theorem build_eq_ok_iff : build name as = .ok m ↔
    m = { name, attributes := m.attributes } ∧ m.attributes.Perm as ∧ Ascending m.attributes := by
  constructor
  · intro h
    rw [build] at h
    split at h
    · cases h
    · next hr =>
      cases h
      exact ⟨rfl, perm_byName as, ascending_of_repeated?_eq_none (ordered_byName as) hr⟩
  · rintro ⟨hm, hp, hasc⟩
    rw [build_eq hp.symm hasc, ← hm]

theorem leastRepeated_of_build (h : build name as = .error e) :
    ∃ n, e = .duplicateAttribute name n ∧ LeastRepeated as n := by
  rw [build] at h
  split at h
  · next n hr =>
    cases h
    exact ⟨n, rfl, (leastRepeated_of_repeated? (ordered_byName as) hr).perm (perm_byName as)⟩
  · cases h

theorem exists_build_iff : (∃ m, build name as = .ok m) ↔ (as.map (·.name)).Nodup := by
  constructor
  · rintro ⟨m, hm⟩
    obtain ⟨-, hp, hasc⟩ := build_eq_ok_iff.1 hm
    exact ((hp.map _).nodup_iff).1 hasc.nodup
  · intro h
    cases hb : build name as with
    | ok m => exact ⟨m, rfl⟩
    | error e =>
      obtain ⟨n, -, hn⟩ := leastRepeated_of_build hb
      exact absurd hn.repeats (nodup_iff_not_repeats.1 h n)

theorem build_perm (name : String) (hp : as.Perm bs) : build name bs = build name as := by
  cases ha : build name as with
  | ok m =>
    obtain ⟨hm, hperm, hasc⟩ := build_eq_ok_iff.1 ha
    exact build_eq_ok_iff.2 ⟨hm, hperm.trans hp, hasc⟩
  | error e =>
    obtain ⟨n, rfl, hn⟩ := leastRepeated_of_build ha
    cases hb : build name bs with
    | ok m =>
      have hnodup : (bs.map (·.name)).Nodup := exists_build_iff.1 ⟨m, hb⟩
      exact absurd (hn.repeats.perm hp) (nodup_iff_not_repeats.1 hnodup n)
    | error e' =>
      obtain ⟨n', rfl, hn'⟩ := leastRepeated_of_build hb
      rw [(hn.perm hp).unique hn']

/-! ### Models that come about -/

/-- A model that is built from attributes or generated from values, with or without a text about it. -/
inductive Built : Model → Prop
  | build {name : String} {as : List Attribute} {m : Model} (h : Model.build name as = .ok m) : Built m
  | generate (name : String) (values : SortedMap String Value) : Built (Model.generate name values)
  | describe {m : Model} (h : Built m) (text : String) : Built (m.describe text)

theorem ascending_generate (name : String) (values : SortedMap String Value) :
    Ascending (generate name values).attributes :=
  List.pairwise_map.2 values.sorted

theorem Built.ascending (h : m.Built) : Ascending m.attributes := by
  induction h with
  | build h => exact (build_eq_ok_iff.1 h).2.2
  | generate name values => exact ascending_generate name values
  | describe _ _ ih => exact ih

/-- DECLARED: attributes make a model just when their names differ. It then holds exactly them, in
    ascending name order; otherwise the least name that is declared twice is reported; and another order
    of declaration makes no difference to either. In every model that comes about, the bisection finds
    for a name exactly the attribute that is declared under it, and nothing just when there is none. -/
theorem declared_in_any_order (name : String) (as : List Attribute) :
    ((∃ m, build name as = .ok m) ↔ (as.map (·.name)).Nodup) ∧
    (∀ m, build name as = .ok m → m.name = name ∧ m.attributes.Perm as ∧ Ascending m.attributes) ∧
    (∀ e, build name as = .error e → ∃ n, e = .duplicateAttribute name n ∧ LeastRepeated as n) ∧
    (∀ bs, as.Perm bs → build name bs = build name as) ∧
    ∀ m : Model, m.Built → ∀ n,
      (∀ a, m.attribute? n = some a ↔ a ∈ m.attributes ∧ a.name = n) ∧
      (m.attribute? n = none ↔ ∀ a ∈ m.attributes, a.name ≠ n) := by
  refine ⟨exists_build_iff, fun m hm => ?_, fun e => leastRepeated_of_build, fun bs => build_perm name,
    fun m hm n => ⟨fun a => attribute?_eq_some_iff hm.ascending, attribute?_eq_none_iff hm.ascending⟩⟩
  obtain ⟨hname, hp, hasc⟩ := build_eq_ok_iff.1 hm
  exact ⟨congrArg Model.name hname, hp, hasc⟩

/-- Two orders of three attributes make one model, in which one of them is found and another name is not;
with two of the names declared again, the least of the two is reported. -/
theorem scrambled_found :
    let wind : Attribute := { name := "wind_speed", type := .bool, required := false }
    let warm : Attribute := { name := "temperature", type := .bool, required := true }
    let damp : Attribute := { name := "humidity", type := .bool, required := true }
    let twice := [wind, warm, damp, { damp with type := .double }, wind]
    (∃ m, build "weather_data" [wind, warm, damp] = .ok m ∧ build "weather_data" [damp, wind, warm] = .ok m ∧
      m.attribute? "temperature" = some warm ∧ m.attribute? "pressure" = none) ∧
    build "weather_data" twice = .error (.duplicateAttribute "weather_data" "humidity") := by
  intro wind warm damp twice
  constructor
  · obtain ⟨hok, hsame, -, hperm, hfind⟩ := declared_in_any_order "weather_data" [wind, warm, damp]
    obtain ⟨m, hm⟩ := hok.2 (by decide)
    obtain ⟨-, hp, -⟩ := hsame m hm
    obtain ⟨hthere, -⟩ := hfind m (.build hm) "temperature"
    obtain ⟨-, hnone⟩ := hfind m (.build hm) "pressure"
    refine ⟨m, hm, (hperm _ (by decide)).trans hm, (hthere warm).2 ⟨hp.mem_iff.2 (by decide), rfl⟩, ?_⟩
    exact hnone.2 fun a ha => (show ∀ a ∈ [wind, warm, damp], a.name ≠ "pressure" by decide) a (hp.subset ha)
  · obtain ⟨hok, -, herror, -⟩ := declared_in_any_order "weather_data" twice
    cases hb : build "weather_data" twice with
    | ok m => exact absurd (hok.1 ⟨m, hb⟩) (by decide)
    | error e =>
      obtain ⟨n, rfl, hn⟩ := herror e hb
      have hleast : LeastRepeated twice "humidity" := by
        refine ⟨by decide, fun n' hn' => ?_⟩
        obtain ⟨a, ha, rfl⟩ := hn'.mem
        exact (show ∀ a ∈ twice, "humidity" ≤ a.name by decide) a ha
      rw [hn.unique hleast]

end Negotiation.Model
