import Negotiation.Decimal.Binary

/-!
Numbers with a fixed count of places. Rounding looks at the exact value of the number, and a value
half way between two texts goes to the one whose last digit is even.
-/

namespace Negotiation.Decimal

/-- The whole number nearest to `num / den`, an even one when two are equally near. -/
def roundEven (num den : Nat) : Nat :=
  let q := num / den
  let r := num % den
  if 2 * r < den then q
  else if den < 2 * r then q + 1
  else if q % 2 = 0 then q else q + 1

/-- Digits with a point before the last `places` of them. -/
def withPoint (places n : Nat) : String :=
  let ds := n.repr
  let ds := String.ofList (List.replicate (places + 1 - ds.length) '0') ++ ds
  if places = 0 then ds
  else
    let cut := ds.length - places
    String.ofList (ds.toList.take cut) ++ "." ++ String.ofList (ds.toList.drop cut)

/-- A number with a fixed count of places; a minus sign stays even before zero. -/
def fixed (places : Nat) (x : Float) : String :=
  match Binary.ofFloat? x with
  | some b =>
    let (num, den) := b.magnitude
    (if b.negative then "-" else "") ++ withPoint places (roundEven (num * Nat.pow 10 places) den)
  | none => if x.isNaN then "NaN" else if x < 0.0 then "-inf" else "inf"

end Negotiation.Decimal
