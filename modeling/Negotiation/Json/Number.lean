import Negotiation.Json.Written
import Negotiation.Text.Digits

/-!
What a written number means. Digits are gathered in a 64-bit significand as long as they fit, and
the significand is then scaled by one power of ten: exact for up to fifteen digits, and at most a
unit in the last place off beyond that.
-/

namespace Negotiation.Json

/-- A power of ten as a binary64 number, for exponents up to 308. -/
def powerOfTen (n : Nat) : Float := Float.ofScientific 1 false n

/-- `f` times ten to the power `e`; none when that is too large. -/
def scale (f : Float) (e : Int) : Option Float :=
  if f == 0.0 then some f
  else if 308 < e then none
  else if 0 ≤ e then
    let x := f * powerOfTen e.toNat
    if x.isInf then none else some x
  else if -308 ≤ e then some (f / powerOfTen (-e).toNat)
  else scale (f / powerOfTen 308) (e + 308)
termination_by (-e).toNat
decreasing_by omega

/-- Appends digits to a 64-bit significand up to the first that does not fit, and counts them. -/
def gather : Nat → List Nat → Nat × Nat
  | sig, [] => (sig, 0)
  | sig, d :: ds =>
    if sig * 10 + d < 0x10000000000000000 then
      let (s, n) := gather (sig * 10 + d) ds
      (s, n + 1)
    else (sig, 0)

namespace Numeral

/-- The significand and the power of ten it is scaled by. -/
def parts (n : Numeral) : Nat × Int :=
  let (sig, taken) := gather 0 n.whole
  let dropped : Int := (n.whole.length - taken : Nat)
  let (sig, places) := gather sig (n.fraction.getD [])
  let shift : Int := match n.exponent with
    | none => 0
    | some (neg, ds) => if neg then -(Text.numberOf 10 ds : Int) else Text.numberOf 10 ds
  (sig, dropped - places + shift)

/-- Whether the number is written without fraction and exponent. -/
def isWhole (n : Numeral) : Bool := n.fraction.isNone && n.exponent.isNone

/-- The binary64 number that is meant; none when it is too large. -/
def float? (n : Numeral) : Option Float :=
  let (sig, e) := n.parts
  (scale sig.toUInt64.toFloat e).map fun x => if n.negative then -x else x

/-- The JSON number that is meant; none when it is too large. -/
def json? (n : Numeral) : Option Json :=
  let v := Text.numberOf 10 n.whole
  if n.isWhole && !n.negative && v < 0x10000000000000000 then some (.int v)
  else if n.isWhole && n.negative && 0 < v && v ≤ 0x8000000000000000 then some (.int (-v))
  else n.float?.map .float

end Numeral

/-- The bytes of a string; none when half a surrogate pair stands alone. -/
def bytesOf : List Piece → Option (List UInt8)
  | [] => some []
  | .byte b :: r => (bytesOf r).map (b :: ·)
  | .unit n :: .unit m :: r =>
    if 0xD800 ≤ n ∧ n < 0xDC00 then
      if 0xDC00 ≤ m ∧ m < 0xE000 then
        let c := Char.ofNat (0x10000 + (n - 0xD800) * 0x400 + (m - 0xDC00))
        (bytesOf r).map ((String.singleton c).toUTF8.toList ++ ·)
      else none
    else if 0xDC00 ≤ n ∧ n < 0xE000 then none
    else (bytesOf (.unit m :: r)).map ((String.singleton (Char.ofNat n)).toUTF8.toList ++ ·)
  | .unit n :: r =>
    if 0xD800 ≤ n ∧ n < 0xE000 then none
    else (bytesOf r).map ((String.singleton (Char.ofNat n)).toUTF8.toList ++ ·)

/-- The text that a written string means; none when it is no text. -/
def textOf (ps : List Piece) : Option String :=
  (bytesOf ps).bind fun bs => String.fromUTF8? (ByteArray.mk bs.toArray)

namespace Written

mutual

/-- The value that a text means; none when a string or a number in it means nothing. -/
def json? : Written → Option Json
  | .null => some .null
  | .bool b => some (.bool b)
  | .num n => n.json?
  | .str s => (textOf s).map .str
  | .arr xs => (jsonItems? xs).map .arr
  | .obj ms => (jsonMembers? ms).map .obj

/-- The values of several texts. -/
def jsonItems? : List Written → Option (List Json)
  | [] => some []
  | x :: xs => do some ((← json? x) :: (← jsonItems? xs))

/-- The members that written members mean. -/
def jsonMembers? : List (List Piece × Written) → Option Members
  | [] => some []
  | (k, x) :: ms => do some ((← textOf k, ← json? x) :: (← jsonMembers? ms))

end

end Written

/-- Reads a JSON text. -/
def parse? (text : String) : Option Json :=
  (Written.ofBytes? text.toUTF8.toList).bind Written.json?

end Negotiation.Json
