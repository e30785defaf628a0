/-!
Binary64 numbers as exact values: a finite number is a sign, a whole mantissa and a power of two.
-/

namespace Negotiation.Decimal

/-- The magnitude `mantissa * 2 ^ exponent` with a sign. -/
structure Binary where
  negative : Bool
  mantissa : Nat
  exponent : Int
  /-- The next number below is nearer than the next above. -/
  narrowBelow : Bool

namespace Binary

/-- The exact value of a finite number. -/
def ofFloat? (x : Float) : Option Binary :=
  let bits := x.toBits.toNat
  let e : Nat := bits / 0x10000000000000 % 0x800
  let f := bits % 0x10000000000000
  let neg := bits / 0x8000000000000000 == 1
  if e = 2047 then none
  else if e = 0 then some ⟨neg, f, -1074, false⟩
  else some ⟨neg, 0x10000000000000 + f, (e : Int) - 1075, f == 0 && e != 1⟩

/-- `n * 2 ^ e` as numerator and denominator. -/
def ratio (n : Nat) (e : Int) : Nat × Nat :=
  if 0 ≤ e then (n * Nat.pow 2 e.toNat, 1) else (n, Nat.pow 2 (-e).toNat)

/-- The magnitude as numerator and denominator. -/
def magnitude (b : Binary) : Nat × Nat := ratio b.mantissa b.exponent

end Binary

end Negotiation.Decimal
