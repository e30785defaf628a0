import Negotiation.Json.Tagged
import Negotiation.Proofs.Json.Finite
import Negotiation.Proofs.SortedMap

/-!
What it takes for a JSON form to lose nothing. A value whose numbers are finite is read back from what it
is written to, however names are read, and what is read from a value that JSON can say has finite
numbers. Both are shown from a type's parts to the type: for a record from its members, for a value with
a tag from the content.
-/

namespace Negotiation.Json

/-- A value that JSON can say: integers of 64 bits, with or without a sign, and finite numbers. -/
inductive Valid : Json → Prop
  | null : Valid .null
  | bool (b : Bool) : Valid (.bool b)
  | int {n : Int} (hlo : -0x8000000000000000 ≤ n) (hhi : n ≤ 0xFFFFFFFFFFFFFFFF) : Valid (.int n)
  | float {x : Float} (h : x.isFinite) : Valid (.float x)
  | str (s : String) : Valid (.str s)
  | arr {items : List Json} (h : ∀ j ∈ items, Valid j) : Valid (.arr items)
  | obj {ms : Members} (h : ∀ e ∈ ms, Valid e.2) : Valid (.obj ms)

/-- Types whose values may hold binary64 numbers. A type of which nothing is said holds none. -/
class HasFloats (α : Type) where
  /-- All numbers that a value holds are finite. -/
  AllFinite : α → Prop

export HasFloats (AllFinite)

instance (priority := low) noFloats {α : Type} : HasFloats α := ⟨fun _ => True⟩

/-- A form by which nothing is lost. -/
class Faithful (α : Type) [Form α] [HasFloats α] : Prop where
  decode_encode (naming : Naming) (a : α) (h : AllFinite a) : decodeWith naming (encode a) = some a
  allFinite (naming : Naming) (j : Json) (a : α) (hj : j.Valid) (h : decodeWith naming j = some a) :
    AllFinite a := by intros; trivial

/-- A form in which no value is written as null. -/
class NeverNull (α : Type) [Form α] [HasFloats α] : Prop where
  encode_ne_null (a : α) (h : AllFinite a) : encode a ≠ .null

/-! ### Plain values -/

instance : Faithful Bool where
  decode_encode _ _ _ := rfl

instance : Faithful String where
  decode_encode _ _ _ := rfl

instance : NeverNull String where
  encode_ne_null _ _ := nofun

/-- An integer in the range of its type is read as it was written. -/
theorem map_intIn_int {α : Type} {lo hi n : Int} {f : Int → α} {a : α} (hlo : lo ≤ n) (hhi : n ≤ hi)
    (hf : f n = a) : (intIn lo hi (.int n)).map f = some a := by
  rw [intIn, if_pos ⟨hlo, hhi⟩, Option.map_some, hf]

instance : Faithful UInt8 where
  decode_encode _ n _ :=
    have := n.toNat_lt
    map_intIn_int (Int.natCast_nonneg _) (by omega) (by simp)

instance : Faithful UInt16 where
  decode_encode _ n _ :=
    have := n.toNat_lt
    map_intIn_int (Int.natCast_nonneg _) (by omega) (by simp)

instance : Faithful UInt32 where
  decode_encode _ n _ :=
    have := n.toNat_lt
    map_intIn_int (Int.natCast_nonneg _) (by omega) (by simp)

instance : Faithful UInt64 where
  decode_encode _ n _ :=
    have := n.toNat_lt
    map_intIn_int (Int.natCast_nonneg _) (by omega) (by simp)

instance : Faithful Int64 where
  decode_encode _ n _ := map_intIn_int n.le_toInt (Int.le_of_lt_add_one n.toInt_lt) n.ofInt_toInt

instance : HasFloats Float := ⟨fun x => x.isFinite⟩

theorem encode_of_isFinite {x : Float} (h : x.isFinite) : encode x = .float x := if_pos h

instance : Faithful Float where
  decode_encode _ x h := by
    rw [encode_of_isFinite h]
    rfl
  allFinite _ j x hj h := by
    cases hj with
    | int hlo hhi => exact Option.some.inj h ▸ isFinite_ofInt hlo hhi
    | float hx => exact Option.some.inj h ▸ hx
    | _ => cases h

instance : NeverNull Float where
  encode_ne_null x h := by
    rw [encode_of_isFinite h]
    nofun

/-! ### Lists and maps -/

theorem mapM_map_of_forall {α β : Type} {f : α → β} {g : β → Option α} {l : List α}
    (h : ∀ a ∈ l, g (f a) = some a) : (l.map f).mapM g = some l := by
  induction l with
  | nil => rfl
  | cons a l ih =>
    obtain ⟨ha, hl⟩ := List.forall_mem_cons.1 h
    rw [List.map_cons, List.mapM_cons, ha, ih hl]
    rfl

theorem exists_of_mapM {α β : Type} {g : α → Option β} {l : List α} {l' : List β}
    (h : l.mapM g = some l') {b : β} (hb : b ∈ l') : ∃ a ∈ l, g a = some b := by
  induction l generalizing l' with
  | nil =>
    cases h
    cases hb
  | cons a l ih =>
    rw [List.mapM_cons] at h
    obtain ⟨b₀, hb₀, h⟩ := Option.bind_eq_some_iff.1 h
    obtain ⟨l₀, hl₀, h⟩ := Option.bind_eq_some_iff.1 h
    obtain rfl := Option.some.inj h
    rcases List.mem_cons.1 hb with rfl | hb
    · exact ⟨a, List.mem_cons_self, hb₀⟩
    · obtain ⟨a', ha', hg⟩ := ih hl₀ hb
      exact ⟨a', List.mem_cons_of_mem a ha', hg⟩

instance {α : Type} [HasFloats α] : HasFloats (List α) := ⟨fun l => ∀ a ∈ l, AllFinite a⟩

instance {α : Type} [HasFloats α] : HasFloats (Option α) := ⟨fun o => ∀ a ∈ o, AllFinite a⟩

instance {α : Type} [HasFloats α] : HasFloats (SortedMap String α) :=
  ⟨fun m => ∀ k a, m.get? k = some a → AllFinite a⟩

section Collections

variable {α : Type} [Form α] [HasFloats α] [Faithful α]

instance : Faithful (List α) where
  decode_encode naming _ h := mapM_map_of_forall fun a ha => Faithful.decode_encode naming a (h a ha)
  allFinite naming j l hj h a ha := by
    cases hj with
    | arr hitems =>
      obtain ⟨j, hj, hread⟩ := exists_of_mapM h ha
      exact Faithful.allFinite naming j a (hitems j hj) hread
    | _ => cases h

instance : Faithful (SortedMap String α) where
  decode_encode naming m h := by
    have hread : (m.toList.map fun e => (e.1, encode e.2)).mapM
        (fun e => (decodeWith naming e.2).map (e.1, ·)) = some m.toList := by
      refine mapM_map_of_forall fun e he => ?_
      rw [Faithful.decode_encode naming e.2 (h e.1 e.2 (SortedMap.mem_toList_iff.1 he))]
      rfl
    exact (congrArg (Option.map SortedMap.ofList) hread).trans (congrArg some m.ofList_toList)
  allFinite naming j m hj h k a ha := by
    cases hj with
    | obj hms =>
      obtain ⟨l, hl, rfl⟩ := Option.map_eq_some_iff.1 h
      obtain ⟨e, he, hread⟩ := exists_of_mapM hl (SortedMap.mem_of_get?_ofList ha)
      obtain ⟨a', ha', hpair⟩ := Option.map_eq_some_iff.1 hread
      obtain rfl : a' = a := (Prod.mk.inj hpair).2
      exact Faithful.allFinite naming e.2 a' (hms e he) ha'
    | _ => cases h

end Collections

/-! ### Records and tags, written -/

section Writing

variable {α β : Type} [Form α] [HasFloats α] [Faithful α] {naming : Naming} {ms : Members} {name : String}
  {a : α} {b : β}

omit [Form α] [HasFloats α] [Faithful α] in
theorem members_bind {f : Members → Option β} {fields defaulted : List String} {j : Json}
    (hms : j.members? fields defaulted = some ms) (hf : f ms = some b) :
    (j.members? fields defaulted).bind f = some b := by
  rw [hms]
  exact hf

omit [Form α] [HasFloats α] [Faithful α] in
theorem aroundTag_bind {f : String × Json → Option β} {tagName tag : String} {j rest : Json}
    (hj : aroundTag? tagName j = some (tag, rest)) (hf : f (tag, rest) = some b) :
    (aroundTag? tagName j).bind f = some b := by
  rw [hj]
  exact hf

theorem read_eq (hget : Members.get? ms name = some (encode a)) (ha : AllFinite a) :
    Members.read naming ms name = some a := by
  rw [Members.read, hget]
  exact Faithful.decode_encode naming a ha

theorem read_bind {f : α → Option β} (hget : Members.get? ms name = some (encode a)) (ha : AllFinite a)
    (hf : f a = some b) : (Members.read naming ms name).bind f = some b := by
  rw [read_eq hget ha]
  exact hf

theorem readOr_bind {f : α → Option β} {fallback : α} (hget : Members.get? ms name = some (encode a))
    (ha : AllFinite a) (hf : f a = some b) : (Members.readOr naming ms name fallback).bind f = some b := by
  simp only [Members.readOr, hget, Faithful.decode_encode naming a ha]
  exact hf

theorem given?_of_ne_null {j : Json} (hget : Members.get? ms name = some j) (hj : j ≠ .null) :
    Members.given? ms name = some j := by
  rw [Members.given?, hget]
  cases j with
  | null => exact absurd rfl hj
  | _ => rfl

theorem readOptional_bind [NeverNull α] {f : Option α → Option β} {o : Option α}
    (hget : Members.get? ms name = some (encode o)) (ho : AllFinite o) (hf : f o = some b) :
    (Members.readOptional naming ms name).bind f = some b := by
  cases o with
  | none =>
    have hgiven : Members.given? ms name = none := by
      rw [Members.given?, hget]
      rfl
    rw [Members.readOptional, hgiven]
    exact hf
  | some a =>
    have ha : AllFinite a := ho a rfl
    rw [Members.readOptional, given?_of_ne_null hget (NeverNull.encode_ne_null a ha)]
    show ((decodeWith naming (encode a)).map some).bind f = some b
    rw [Faithful.decode_encode naming a ha]
    exact hf

theorem decode_map {f : α → β} (ha : AllFinite a) (hf : f a = b) :
    (decodeWith naming (encode a)).map f = some b := by
  rw [Faithful.decode_encode naming a ha, Option.map_some, hf]

end Writing

/-! ### Records and tags, read -/

/-- Members of which each has a value that JSON can say. -/
def Members.Valid (ms : Members) : Prop := ∀ e ∈ ms, e.2.Valid

theorem Members.Valid.get? {ms : Members} (h : ms.Valid) {name : String} {j : Json}
    (hget : Members.get? ms name = some j) : j.Valid := by
  induction ms with
  | nil => cases hget
  | cons e rest ih =>
    obtain ⟨he, hrest⟩ := List.forall_mem_cons.1 h
    rw [Members.get?] at hget
    rcases Option.or_eq_some_iff.1 hget with hr | ⟨-, hhead⟩
    · exact ih hrest hr
    · split at hhead
      · exact Option.some.inj hhead ▸ he
      · cases hhead

section Reading

variable {α β : Type} [Form α] [HasFloats α] [Faithful α] {naming : Naming} {j : Json} {ms : Members}
  {name : String} {b : β}

theorem of_members_bind {f : Members → Option β} {fields defaulted : List String} (hj : j.Valid)
    (h : (j.members? fields defaulted).bind f = some b) : ∃ ms : Members, ms.Valid ∧ f ms = some b := by
  obtain ⟨ms, hms, h⟩ := Option.bind_eq_some_iff.1 h
  refine ⟨ms, ?_, h⟩
  cases hj with
  | obj hvalid => exact Option.some.inj hms ▸ hvalid
  | arr hitems =>
    rw [members?] at hms
    split at hms
    · intro e he
      obtain rfl := Option.some.inj hms
      exact hitems e.2 (List.of_mem_zip he).2
    · cases hms
  | _ => cases hms

theorem of_read_bind {f : α → Option β} (hms : ms.Valid) (h : (Members.read naming ms name).bind f = some b) :
    ∃ a, AllFinite a ∧ f a = some b := by
  obtain ⟨a, hread, h⟩ := Option.bind_eq_some_iff.1 h
  obtain ⟨j, hget, hread⟩ := Option.bind_eq_some_iff.1 hread
  exact ⟨a, Faithful.allFinite naming j a (hms.get? hget) hread, h⟩

theorem of_readOr_bind {f : α → Option β} {fallback : α} (hms : ms.Valid) (hfallback : AllFinite fallback)
    (h : (Members.readOr naming ms name fallback).bind f = some b) : ∃ a, AllFinite a ∧ f a = some b := by
  obtain ⟨a, hread, h⟩ := Option.bind_eq_some_iff.1 h
  refine ⟨a, ?_, h⟩
  rw [Members.readOr] at hread
  cases hget : Members.get? ms name with
  | none =>
    rw [hget] at hread
    exact Option.some.inj hread ▸ hfallback
  | some j =>
    rw [hget] at hread
    exact Faithful.allFinite naming j a (hms.get? hget) hread

theorem of_readOptional_bind {f : Option α → Option β} (hms : ms.Valid)
    (h : (Members.readOptional naming ms name).bind f = some b) : ∃ o, AllFinite o ∧ f o = some b := by
  obtain ⟨o, hread, h⟩ := Option.bind_eq_some_iff.1 h
  refine ⟨o, fun a ha => ?_, h⟩
  obtain rfl : o = some a := ha
  rw [Members.readOptional] at hread
  split at hread
  · cases hread
  · next j hgiven =>
    obtain ⟨a', hdecode, ha'⟩ := Option.map_eq_some_iff.1 hread
    obtain rfl : a' = a := Option.some.inj ha'
    have hget : Members.get? ms name = some j := by
      rw [Members.given?] at hgiven
      split at hgiven
      · cases hgiven
      · exact hgiven
    exact Faithful.allFinite naming j a' (hms.get? hget) hdecode

theorem of_decode_map {f : α → β} (hj : j.Valid) (h : (decodeWith naming j).map f = some b) :
    ∃ a, AllFinite a ∧ f a = b := by
  obtain ⟨a, hread, h⟩ := Option.map_eq_some_iff.1 h
  exact ⟨a, Faithful.allFinite naming j a hj hread, h⟩

end Reading

theorem of_besideTag_bind {β : Type} {f : String × Json × Naming → Option β} {tagName contentName : String}
    {tags : List String} {naming : Naming} {j : Json} {b : β} (hj : j.Valid)
    (h : (besideTag? tagName contentName tags naming j).bind f = some b) :
    ∃ tag content naming', content.Valid ∧ f (tag, content, naming') = some b := by
  obtain ⟨⟨tag, content, naming'⟩, hb, h⟩ := Option.bind_eq_some_iff.1 h
  refine ⟨tag, content, naming', ?_, h⟩
  rw [besideTag?.eq_def] at hb
  split at hb
  · next ms =>
    cases hj with
    | obj hms =>
      obtain ⟨jtag, -, hb⟩ := Option.bind_eq_some_iff.1 hb
      obtain ⟨tag', -, hb⟩ := Option.bind_eq_some_iff.1 hb
      obtain ⟨-, rfl, -⟩ : _ = tag ∧ (Members.get? ms contentName).getD .null = content ∧ _ := by
        simpa using hb
      cases hget : Members.get? ms contentName with
      | none => exact .null
      | some j => exact Members.Valid.get? hms hget
  · next jtag content' =>
    cases hj with
    | arr hitems =>
      obtain ⟨tag', -, hb⟩ := Option.bind_eq_some_iff.1 hb
      obtain ⟨-, rfl, -⟩ : _ = tag ∧ content' = content ∧ _ := by simpa using hb
      exact hitems content' (by simp)
  · cases hb

theorem of_aroundTag_bind {β : Type} {f : String × Json → Option β} {tagName : String} {j : Json} {b : β}
    (hj : j.Valid) (h : (aroundTag? tagName j).bind f = some b) :
    ∃ tag rest, rest.Valid ∧ f (tag, rest) = some b := by
  obtain ⟨⟨tag, rest⟩, hb, h⟩ := Option.bind_eq_some_iff.1 h
  refine ⟨tag, rest, ?_, h⟩
  rw [aroundTag?.eq_def] at hb
  split at hb
  · obtain ⟨jtag, -, hb⟩ := Option.bind_eq_some_iff.1 hb
    obtain ⟨tag', -, hb⟩ := Option.bind_eq_some_iff.1 hb
    obtain ⟨-, rfl⟩ := Prod.mk.inj (Option.some.inj hb)
    exact hj
  · next jtag items =>
    obtain ⟨tag', -, hb⟩ := Option.bind_eq_some_iff.1 hb
    obtain ⟨-, rfl⟩ := Prod.mk.inj (Option.some.inj hb)
    cases hj with
    | arr hitems => exact .arr fun j hj => hitems j (List.mem_cons_of_mem _ hj)
  · cases hb

end Negotiation.Json
