import Negotiation.Text.Digits
import Negotiation.Text.Quoted

/-!
Bytes as text over an alphabet of fifty-eight letters and digits that are not easily mistaken for
one another. The bytes are one number, written in base 58; each zero byte in front is written as the
digit zero.
-/

namespace Negotiation.Base58

/-- The digits, in ascending order of value. -/
def alphabet : List Char := "123456789ABCDEFGHJKLMNPQRSTUVWXYZabcdefghijkmnopqrstuvwxyz".toList

/-- The value of a digit. -/
def digit? (c : Char) : Option Nat := alphabet.findIdx? (· = c)

/-- Why a text is not in base 58, and at which byte. -/
inductive Fault where
  | invalidCharacter (c : Char) (position : Nat)
  | nonAscii (position : Nat)
  deriving DecidableEq

/-- The wording of a fault. -/
def Fault.message : Fault → String
  | .invalidCharacter c position => "provided string contained invalid character "
      ++ Text.quotedChar c ++ " at byte " ++ toString position
  | .nonAscii position =>
    "provided string contained non-ascii character starting at byte " ++ toString position

/-- The digits' values; the text starts at the byte `position`. -/
def digits (position : Nat) : List Char → Except Fault (List Nat)
  | [] => .ok []
  | c :: r =>
    match digit? c with
    | some d => (digits (position + 1) r).map (d :: ·)
    | none =>
      .error (if c.toNat < 128 then .invalidCharacter c position else .nonAscii position)

/-- The digits of one base in another base, with as many zeros in front. -/
def rebase (source target : Nat) (h : 1 < target) (ds : List Nat) : List Nat :=
  ds.takeWhile (· = 0) ++ Text.digitsOf target h (Text.numberOf source ds)

/-- The text of some bytes. -/
def encode (bytes : List UInt8) : String :=
  String.ofList ((rebase 256 58 (by decide) (bytes.map UInt8.toNat)).filterMap (alphabet[·]?))

/-- The bytes of a text. -/
def decode (text : String) : Except Fault (List UInt8) :=
  (digits 0 text.toList).map fun ds => (rebase 58 256 (by decide) ds).map Nat.toUInt8

end Negotiation.Base58
