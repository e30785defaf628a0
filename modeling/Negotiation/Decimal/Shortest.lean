import Negotiation.Decimal.Binary

/-!
The shortest decimal that reads back. A decimal reads back when it lies between the midpoints to the
two neighbouring numbers, and on a midpoint when the mantissa is even. Grids of decimals are tried
from coarse to fine, and on each only the two decimals next to the number can be nearest.
-/

namespace Negotiation.Decimal

/-- The decimal `digits * 10 ^ exponent`. -/
structure Digits where
  digits : Nat
  exponent : Int

/-- The decimals that read back as one number: between `lo / den` and `hi / den` around `mid / den`,
with both ends when `closed`. -/
structure Interval where
  lo : Nat
  mid : Nat
  hi : Nat
  den : Nat
  closed : Bool

namespace Interval

/-- The interval of a positive number. -/
def ofBinary (b : Binary) : Interval :=
  let (unit, den) := Binary.ratio 1 (b.exponent - 2)
  let m := 4 * b.mantissa
  ⟨(if b.narrowBelow then m - 1 else m - 2) * unit, m * unit, (m + 2) * unit, den,
    b.mantissa % 2 == 0⟩

/-- Whether `num / den'` reads back, where `den'` is the interval's denominator times `k`. -/
def holds (i : Interval) (k num : Nat) : Bool :=
  if i.closed then i.lo * k ≤ num && num ≤ i.hi * k else i.lo * k < num && num < i.hi * k

/-- The decimal on the grid of `10 ^ e` that reads back and is nearest, the even one of two. -/
def onGrid (i : Interval) (e : Int) : Option Nat :=
  let up := Nat.pow 10 e.toNat
  let down := Nat.pow 10 (-e).toNat
  let step := up * i.den
  let d := i.mid * down / step
  let below := holds i down (d * step)
  let above := holds i down ((d + 1) * step)
  let gap := 2 * (i.mid * down - d * step)
  if below && above then
    if gap < step then some d
    else if step < gap then some (d + 1)
    else if d % 2 = 0 then some d else some (d + 1)
  else if below then some d
  else if above then some (d + 1)
  else none

/-- The first grid with a decimal that reads back, from `10 ^ e` down. -/
def search (i : Interval) : Nat → Int → Option Digits
  | 0, _ => none
  | n + 1, e =>
    match onGrid i e with
    | some d => some ⟨d, e⟩
    | none => search i n (e - 1)

end Interval

/-- The shortest decimal that reads back as a positive number. -/
def shortest (b : Binary) : Digits :=
  let top : Int := ((b.mantissa.log2 : Int) + 1 + b.exponent) * 30103 / 100000 + 1
  ((Interval.ofBinary b).search 24 top).getD ⟨0, 0⟩

end Negotiation.Decimal
