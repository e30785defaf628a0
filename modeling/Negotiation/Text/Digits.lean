/-!
Numbers and their digits in a base, the most significant first. Zero has no digits.
-/

namespace Negotiation.Text

/-- The number that digits write. -/
def numberOf (base : Nat) (ds : List Nat) : Nat := ds.foldl (fun n d => n * base + d) 0

/-- The digits of a number. -/
def digitsOf (base : Nat) (h : 1 < base) (n : Nat) : List Nat :=
  if n = 0 then [] else digitsOf base h (n / base) ++ [n % base]
termination_by n
decreasing_by exact Nat.div_lt_self (by omega) h

end Negotiation.Text
