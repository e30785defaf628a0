import Negotiation.Json
import Negotiation.Decimal.Shortest

/-!
JSON text of a value: on one line without blanks, or with each item on a line of its own. A number
that is not whole is written with the fewest digits that read back.
-/

namespace Negotiation.Json

/-- The digit of a value below sixteen, in lower case. -/
def hexDigit (n : Nat) : Char := Char.ofNat (if n < 10 then 48 + n else 87 + n)

/-- A character inside a JSON string. -/
def escaped (c : Char) : String :=
  if c = '"' then "\\\""
  else if c = '\\' then "\\\\"
  else if c = '\n' then "\\n"
  else if c = '\r' then "\\r"
  else if c = '\t' then "\\t"
  else if c.toNat = 8 then "\\b"
  else if c.toNat = 12 then "\\f"
  else if c.toNat < 32 then
    "\\u00" ++ String.singleton (hexDigit (c.toNat / 16)) ++ String.singleton (hexDigit (c.toNat % 16))
  else String.singleton c

/-- A JSON string. -/
def quoted (s : String) : String :=
  "\"" ++ s.toList.foldl (fun acc c => acc ++ escaped c) "" ++ "\""

/-- How decimals are written: with a point for values from 0.00001 up to 10 ^ 16, where `.0` is kept,
and otherwise with an exponent that has a sign. -/
def decimalText (d : Decimal.Digits) : String :=
  let ds := d.digits.repr
  let n : Int := ds.length
  let point := n + d.exponent
  let zeros (k : Int) := String.ofList (List.replicate k.toNat '0')
  let cut (k : Int) := (String.ofList (ds.toList.take k.toNat), String.ofList (ds.toList.drop k.toNat))
  if 0 ≤ d.exponent ∧ point ≤ 16 then ds ++ zeros d.exponent ++ ".0"
  else if 0 < point ∧ point ≤ 16 then (cut point).1 ++ "." ++ (cut point).2
  else if -5 < point ∧ point ≤ 0 then "0." ++ zeros (-point) ++ ds
  else
    (if ds.length = 1 then ds else (cut 1).1 ++ "." ++ (cut 1).2) ++
      (if point < 1 then "e" else "e+") ++ toString (point - 1)

/-- A number that is not whole; null for one that is not finite. -/
def floatText (x : Float) : String :=
  match Decimal.Binary.ofFloat? x with
  | none => "null"
  | some b =>
    (if b.negative then "-" else "") ++
      if b.mantissa = 0 then "0.0" else decimalText (Decimal.shortest b)

/-- Texts with a separator between them. -/
def joined (sep : String) (parts : List String) : String := sep.intercalate parts

mutual

/-- The text on one line. -/
def compact : Json → String
  | .null => "null"
  | .bool b => if b then "true" else "false"
  | .int n => toString n
  | .float x => floatText x
  | .str s => quoted s
  | .arr xs => "[" ++ joined "," (compactItems xs) ++ "]"
  | .obj ms => "\x7b" ++ joined "," (compactMembers ms) ++ "\x7d"

/-- The texts of the items of an array. -/
def compactItems : List Json → List String
  | [] => []
  | x :: xs => compact x :: compactItems xs

/-- The texts of the members of an object. -/
def compactMembers : Members → List String
  | [] => []
  | (k, x) :: ms => (quoted k ++ ":" ++ compact x) :: compactMembers ms

end

/-- Blanks at the start of a line: two for each level. -/
def indent (level : Nat) : String := String.ofList (List.replicate (2 * level) ' ')

/-- Parts on lines of their own between an opening and a closing bracket. -/
def block (level : Nat) (openBracket closeBracket : String) (parts : List String) : String :=
  if parts.isEmpty then openBracket ++ closeBracket
  else
    openBracket ++ "\n" ++ joined ",\n" (parts.map (indent (level + 1) ++ ·)) ++ "\n" ++ indent level
      ++ closeBracket

mutual

/-- The text with each item on a line of its own. -/
def pretty (level : Nat) : Json → String
  | .arr xs => block level "[" "]" (prettyItems (level + 1) xs)
  | .obj ms => block level "\x7b" "\x7d" (prettyMembers (level + 1) ms)
  | .null => "null"
  | .bool b => if b then "true" else "false"
  | .int n => toString n
  | .float x => floatText x
  | .str s => quoted s

/-- The texts of the items of an array. -/
def prettyItems (level : Nat) : List Json → List String
  | [] => []
  | x :: xs => pretty level x :: prettyItems level xs

/-- The texts of the members of an object. -/
def prettyMembers (level : Nat) : Members → List String
  | [] => []
  | (k, x) :: ms => (quoted k ++ ": " ++ pretty level x) :: prettyMembers level ms

end

end Negotiation.Json
