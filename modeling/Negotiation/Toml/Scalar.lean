import Negotiation.Json
import Negotiation.Text.Digits

/-!
Texts, numbers and dates of TOML, each read at the start of a text. Underscores stand between digits
only, whole numbers fit 64 bits with sign, and a date stands for an object without members.
-/

namespace Negotiation.Toml

open Text (numberOf)

/-- What stands in the text at one place and what follows it. -/
abbrev Reader (α : Type) := List Char → Option (α × List Char)

/-- Whether a character may stand in a text as it is: a tab, or anything but a control character. -/
def isPlain (c : Char) : Bool := c = '\t' || (32 ≤ c.toNat && c.toNat ≠ 127)

/-- A space or tab. -/
def isBlank (c : Char) : Bool := c = ' ' || c = '\t'

/-- The value of a digit in a base. -/
def digitIn (base : Nat) (c : Char) : Option Nat :=
  let n := c.toNat
  let d := if 48 ≤ n ∧ n ≤ 57 then n - 48
    else if 97 ≤ n ∧ n ≤ 102 then n - 87
    else if 65 ≤ n ∧ n ≤ 70 then n - 55
    else base
  if d < base then some d else none

/-! ### Texts -/

/-- What a letter behind a backslash stands for. -/
def escape? : Char → Option Char
  | 'b' => some '\x08'
  | 't' => some '\t'
  | 'n' => some '\n'
  | 'f' => some '\x0c'
  | 'r' => some '\r'
  | '"' => some '"'
  | '\\' => some '\\'
  | _ => none

/-- The character of a code point that is written with hexadecimal digits. -/
def charOf (ds : List Char) : Option Char :=
  (ds.mapM (digitIn 16)).bind fun ds =>
    let n := numberOf 16 ds
    if h : n.isValidChar then some (Char.ofNatAux n h)
    else none

/-- Puts a character before a text that was read. -/
def before (c : Char) (r : Option (List Char × List Char)) : Option (List Char × List Char) :=
  r.map fun (t, rest) => (c :: t, rest)

/-- The rest of a text in double quotes on one line. -/
def basicTail : Reader (List Char)
  | '"' :: r => some ([], r)
  | '\\' :: 'u' :: a :: b :: c :: d :: r =>
    (charOf [a, b, c, d]).bind fun x => before x (basicTail r)
  | '\\' :: 'U' :: a :: b :: c :: d :: e :: f :: g :: h :: r =>
    (charOf [a, b, c, d, e, f, g, h]).bind fun x => before x (basicTail r)
  | '\\' :: c :: r => (escape? c).bind fun x => before x (basicTail r)
  | c :: r => if isPlain c && c ≠ '\\' then before c (basicTail r) else none
  | [] => none

/-- The rest of a text in single quotes on one line. -/
def literalTail : Reader (List Char)
  | '\'' :: r => some ([], r)
  | c :: r => if isPlain c then before c (literalTail r) else none
  | [] => none

/-- The text behind blanks and ends of lines. -/
def skipSpace : List Char → List Char
  | '\r' :: '\n' :: r => skipSpace r
  | '\n' :: r => skipSpace r
  | c :: r => if isBlank c then skipSpace r else c :: r
  | [] => []

/-- The text behind the end of the line, if only blanks come before it. -/
def lineEnd? : List Char → Option (List Char)
  | '\r' :: '\n' :: r => some r
  | '\n' :: r => some r
  | c :: r => if isBlank c then lineEnd? r else none
  | [] => none

/-- The rest of a text in three double quotes; one or two quotes may stand before the last three, and
a backslash at the end of a line takes the blanks behind it away. The bound exceeds the length. -/
def longTail : Nat → Reader (List Char)
  | 0, _ => none
  | n + 1, s =>
    match s with
    | '"' :: '"' :: '"' :: '"' :: '"' :: r => some (['"', '"'], r)
    | '"' :: '"' :: '"' :: '"' :: r => some (['"'], r)
    | '"' :: '"' :: '"' :: r => some ([], r)
    | '\\' :: 'u' :: a :: b :: c :: d :: r =>
      (charOf [a, b, c, d]).bind fun x => before x (longTail n r)
    | '\\' :: 'U' :: a :: b :: c :: d :: e :: f :: g :: h :: r =>
      (charOf [a, b, c, d, e, f, g, h]).bind fun x => before x (longTail n r)
    | '\\' :: r =>
      match lineEnd? r with
      | some r => longTail n (skipSpace r)
      | none =>
        match r with
        | c :: r => (escape? c).bind fun x => before x (longTail n r)
        | [] => none
    | '\r' :: '\n' :: r => before '\n' (longTail n r)
    | '\n' :: r => before '\n' (longTail n r)
    | c :: r => if isPlain c then before c (longTail n r) else none
    | [] => none

/-- The rest of a text in three single quotes. -/
def longLiteralTail : Reader (List Char)
  | '\'' :: '\'' :: '\'' :: '\'' :: '\'' :: r => some (['\'', '\''], r)
  | '\'' :: '\'' :: '\'' :: '\'' :: r => some (['\''], r)
  | '\'' :: '\'' :: '\'' :: r => some ([], r)
  | '\r' :: '\n' :: r => before '\n' (longLiteralTail r)
  | '\n' :: r => before '\n' (longLiteralTail r)
  | c :: r => if isPlain c then before c (longLiteralTail r) else none
  | [] => none

/-- The text without an end of line at its start. -/
def dropLineEnd : List Char → List Char
  | '\r' :: '\n' :: r => r
  | '\n' :: r => r
  | r => r

/-- A text in quotes of any kind. -/
def text : Reader String := fun s =>
  (match s with
    | '"' :: '"' :: '"' :: r => longTail (r.length + 1) (dropLineEnd r)
    | '\'' :: '\'' :: '\'' :: r => longLiteralTail (dropLineEnd r)
    | '"' :: r => basicTail r
    | '\'' :: r => literalTail r
    | _ => none).map fun (t, r) => (String.ofList t, r)

/-! ### Numbers -/

/-- The digits that go on a number, each perhaps behind an underscore. -/
def moreDigits (base : Nat) (underscore : Bool) : Reader (List Nat)
  | [] => if underscore then none else some ([], [])
  | c :: r =>
    match digitIn base c with
    | some d => (moreDigits base false r).map fun (ds, r) => (d :: ds, r)
    | none =>
      if underscore then none
      else if c = '_' then moreDigits base true r
      else some ([], c :: r)

/-- Digits with single underscores between them, at least one digit. -/
def digits (base : Nat) (s : List Char) : Option (List Nat × List Char) := moreDigits base true s

/-- A sign, true for minus. -/
def sign : List Char → Bool × List Char
  | '-' :: r => (true, r)
  | '+' :: r => (false, r)
  | r => (false, r)

/-- Decimal digits that do not start with a superfluous zero. -/
def decimal : Reader (List Nat)
  | '0' :: r => some ([0], r)
  | s => digits 10 s

/-- A whole number of 64 bits. -/
def integerOf (neg : Bool) (n : Nat) : Option Json :=
  let i : Int := if neg then -(n : Int) else n
  if -0x8000000000000000 ≤ i ∧ i < 0x8000000000000000 then some (.int i) else none

/-- A whole number. -/
def integer : Reader Json
  | '0' :: 'x' :: r => do let (ds, r) ← digits 16 r; some (← integerOf false (numberOf 16 ds), r)
  | '0' :: 'o' :: r => do let (ds, r) ← digits 8 r; some (← integerOf false (numberOf 8 ds), r)
  | '0' :: 'b' :: r => do let (ds, r) ← digits 2 r; some (← integerOf false (numberOf 2 ds), r)
  | s => do
    let (neg, s) := sign s
    let (ds, r) ← decimal s
    some (← integerOf neg (numberOf 10 ds), r)

/-- The number `m * 10 ^ e`, rounded once. -/
def floatOf (m : Nat) (e : Int) : Float :=
  let magnitude : Int := (m.repr.length : Int) + e
  if m = 0 ∨ magnitude < -400 then 0.0
  else if 400 < magnitude then 1.0 / 0.0
  else Float.ofScientific m (e < 0) e.natAbs

/-- The exponent of a number. -/
def exponent : Reader Int
  | c :: r =>
    if c = 'e' || c = 'E' then
      let (neg, r) := sign r
      (digits 10 r).map fun (ds, r) => (if neg then -(numberOf 10 ds : Int) else numberOf 10 ds, r)
    else none
  | [] => none

/-- A number with fraction or exponent; one that is too large is refused unless it is negative. -/
def float : Reader Json := fun s => do
  let (neg, s) := sign s
  let (whole, s) ← decimal s
  let (fraction, e, s) ← match s with
    | '.' :: r => do
      let (fs, r) ← digits 10 r
      match r with
      | 'e' :: _ => (exponent r).map fun (e, r) => (fs, e, r)
      | 'E' :: _ => (exponent r).map fun (e, r) => (fs, e, r)
      | _ => some (fs, 0, r)
    | _ => (exponent s).map fun (e, r) => ([], e, r)
  let x := floatOf (numberOf 10 (whole ++ fraction)) (e - fraction.length)
  if x.isInf && !neg then none else some (.float (if neg then -x else x), s)

/-- A number that is named. -/
def namedFloat : Reader Json := fun s =>
  let (neg, s) := sign s
  let signed (x : Float) : Json := .float (if neg then -x else x)
  match s with
  | 'i' :: 'n' :: 'f' :: r => some (signed (1.0 / 0.0), r)
  | 'n' :: 'a' :: 'n' :: r => some (signed (0.0 / 0.0), r)
  | _ => none

/-! ### Dates -/

/-- A number of a fixed count of digits between two bounds. -/
def fixedNumber (count lo hi : Nat) : Reader Nat := fun s =>
  let ds := (s.take count).filterMap (digitIn 10)
  let n := numberOf 10 ds
  if ds.length = count ∧ lo ≤ n ∧ n ≤ hi then some (n, s.drop count) else none

/-- A character that must stand here. -/
def expect (c : Char) : List Char → Option (List Char)
  | [] => none
  | d :: r => if d = c then some r else none

/-- The number of days of a month. -/
def daysIn (year month : Nat) : Nat :=
  if month = 2 then if year % 4 = 0 ∧ (year % 100 ≠ 0 ∨ year % 400 = 0) then 29 else 28
  else if month = 4 ∨ month = 6 ∨ month = 9 ∨ month = 11 then 30
  else 31

/-- The text behind a day. -/
def day (s : List Char) : Option (List Char) := do
  let (y, s) ← fixedNumber 4 0 9999 s
  let (m, s) ← fixedNumber 2 1 12 (← expect '-' s)
  let (_, s) ← fixedNumber 2 1 (daysIn y m) (← expect '-' s)
  some s

/-- The text behind a time of day. -/
def timeOfDay (s : List Char) : Option (List Char) := do
  let (_, s) ← fixedNumber 2 0 23 s
  let (_, s) ← fixedNumber 2 0 59 (← expect ':' s)
  let (_, s) ← fixedNumber 2 0 60 (← expect ':' s)
  match s with
  | '.' :: r =>
    let rest := r.dropWhile fun c => (digitIn 10 c).isSome
    if rest.length < r.length then some rest else none
  | _ => some s

/-- The text behind a distance from universal time. -/
def zone (s : List Char) : Option (List Char) :=
  match s with
  | [] => none
  | c :: r =>
    if c = 'Z' || c = 'z' then some r
    else if c = '+' || c = '-' then do
      let (_, r) ← fixedNumber 2 0 23 r
      let (_, r) ← fixedNumber 2 0 59 (← expect ':' r)
      some r
    else none

/-- A date, a time, or both. -/
def date : Reader Json := fun s =>
  (match day s with
    | none => timeOfDay s
    | some r =>
      match r with
      | [] => some r
      | c :: r' =>
        if c = 'T' || c = 't' || c = ' ' then
          match timeOfDay r' with
          | some t => some ((zone t).getD t)
          | none => some r
        else some r).map fun r => (.obj [], r)

/-- The first of two readers that succeeds. -/
def orRead {α : Type} (p q : Reader α) : Reader α := fun s => (p s).or (q s)

/-- A number or date. -/
def number : Reader Json := orRead date (orRead float (orRead integer namedFloat))

end Negotiation.Toml
