import Negotiation.Json

/-!
JSON text. A text is first read as it is written: strings as their bytes, numbers as their digits.
What a string or a number means is settled afterwards, and only where the value is used, so a value
that is skipped may hold bytes that are no text and numbers of any size.
-/

namespace Negotiation.Json

/-- A number as it is written: its sign, the digits before and behind the point, the exponent. -/
structure Numeral where
  negative : Bool
  whole : List Nat
  fraction : Option (List Nat)
  exponent : Option (Bool × List Nat)

/-- A piece of a string as it is written. -/
inductive Piece where
  | byte (b : UInt8)
  | unit (n : Nat)

/-- A JSON text as it is written. -/
inductive Written where
  | null
  | bool (b : Bool)
  | num (n : Numeral)
  | str (s : List Piece)
  | arr (items : List Written)
  | obj (members : List (List Piece × Written))

namespace Written

/-- What stands in the text at one place and what follows it. -/
abbrev Reader (α : Type) := List UInt8 → Option (α × List UInt8)

/-- Space, tab, line feed and carriage return are blank. -/
def isBlank (b : UInt8) : Bool := b == 32 || b == 9 || b == 10 || b == 13

/-- The text behind its leading blanks. -/
def skipBlanks (s : List UInt8) : List UInt8 := s.dropWhile isBlank

/-- The decimal digit that a byte is. -/
def digit? (b : UInt8) : Option Nat :=
  if 48 ≤ b.toNat ∧ b.toNat ≤ 57 then some (b.toNat - 48) else none

/-- The hexadecimal digit that a byte is. -/
def hexDigit? (b : UInt8) : Option Nat :=
  let n := b.toNat
  if 48 ≤ n ∧ n ≤ 57 then some (n - 48)
  else if 97 ≤ n ∧ n ≤ 102 then some (n - 87)
  else if 65 ≤ n ∧ n ≤ 70 then some (n - 55)
  else none

/-- The digits at the start of a text, there may be none. -/
def digits : List UInt8 → List Nat × List UInt8
  | [] => ([], [])
  | b :: r =>
    match digit? b with
    | none => ([], b :: r)
    | some d => (d :: (digits r).1, (digits r).2)

/-- The digits at the start of a text, at least one. -/
def someDigits : Reader (List Nat) := fun s =>
  match digits s with
  | ([], _) => none
  | r => some r

/-- The whole part of a number: 0, or digits that do not start with 0. -/
def wholePart : Reader (List Nat) := fun s =>
  match digits s with
  | ([], _) => none
  | (0 :: _ :: _, _) => none
  | r => some r

/-- The part behind the point. -/
def fractionPart : Reader (Option (List Nat))
  | 46 :: r => (someDigits r).map fun (ds, r) => (some ds, r)
  | s => some (none, s)

/-- The exponent, true for a negative one. -/
def exponentPart : Reader (Option (Bool × List Nat))
  | [] => some (none, [])
  | b :: r =>
    if b == 101 || b == 69 then
      let (neg, r) := match r with
        | 45 :: r => (true, r)
        | 43 :: r => (false, r)
        | r => (false, r)
      (someDigits r).map fun (ds, r) => (some (neg, ds), r)
    else some (none, b :: r)

/-- A number. -/
def numeral : Reader Numeral := fun s => do
  let (neg, s) := match s with
    | 45 :: r => (true, r)
    | s => (false, s)
  let (whole, s) ← wholePart s
  let (fraction, s) ← fractionPart s
  let (exponent, s) ← exponentPart s
  some (⟨neg, whole, fraction, exponent⟩, s)

/-- What one letter behind a backslash stands for. -/
def escape? (b : UInt8) : Option UInt8 :=
  if b == 34 || b == 92 || b == 47 then some b
  else if b == 98 then some 8
  else if b == 102 then some 12
  else if b == 110 then some 10
  else if b == 114 then some 13
  else if b == 116 then some 9
  else none

/-- The rest of a string behind its opening quote. -/
def stringTail : List UInt8 → Option (List Piece × List UInt8)
  | [] => none
  | 34 :: r => some ([], r)
  | 92 :: 117 :: a :: b :: c :: d :: r => do
    let n := ((← hexDigit? a) * 16 + (← hexDigit? b)) * 256 + (← hexDigit? c) * 16 + (← hexDigit? d)
    let (ps, r) ← stringTail r
    some (.unit n :: ps, r)
  | 92 :: e :: r => do
    let b ← escape? e
    let (ps, r) ← stringTail r
    some (.byte b :: ps, r)
  | b :: r =>
    if b < 32 || b == 92 then none
    else (stringTail r).map fun (ps, r) => (.byte b :: ps, r)

/-- The text behind a fixed word that stands at its start. -/
def word (w : List UInt8) (s : List UInt8) : Option (List UInt8) :=
  if w.isPrefixOf s then some (s.drop w.length) else none

mutual

/-- The value at the start of a text; the first argument bounds the depth and length of what is
read and is enough when it exceeds the length of the text. -/
def value : Nat → Reader Written
  | 0, _ => none
  | fuel + 1, s =>
    match skipBlanks s with
    | 34 :: r => (stringTail r).map fun (ps, r) => (.str ps, r)
    | 91 :: r =>
      match skipBlanks r with
      | 93 :: r => some (.arr [], r)
      | r => (items fuel r).map fun (xs, r) => (.arr xs, r)
    | 123 :: r =>
      match skipBlanks r with
      | 125 :: r => some (.obj [], r)
      | r => (fields fuel r).map fun (ms, r) => (.obj ms, r)
    | 110 :: r => (word [117, 108, 108] r).map fun r => (.null, r)
    | 116 :: r => (word [114, 117, 101] r).map fun r => (.bool true, r)
    | 102 :: r => (word [97, 108, 115, 101] r).map fun r => (.bool false, r)
    | r => (numeral r).map fun (n, r) => (.num n, r)

/-- The items of an array that has some, and its closing bracket. -/
def items : Nat → Reader (List Written)
  | 0, _ => none
  | fuel + 1, s => do
    let (x, s) ← value fuel s
    match skipBlanks s with
    | 44 :: s => (items fuel s).map fun (xs, s) => (x :: xs, s)
    | 93 :: s => some ([x], s)
    | _ => none

/-- The members of an object that has some, and its closing brace. -/
def fields : Nat → Reader (List (List Piece × Written))
  | 0, _ => none
  | fuel + 1, s =>
    match skipBlanks s with
    | 34 :: s => do
      let (name, s) ← stringTail s
      match skipBlanks s with
      | 58 :: s =>
        let (x, s) ← value fuel s
        match skipBlanks s with
        | 44 :: s => (fields fuel s).map fun (ms, s) => ((name, x) :: ms, s)
        | 125 :: s => some ([(name, x)], s)
        | _ => none
      | _ => none
    | _ => none

end

/-- Reads a whole text: one value with blanks around it. -/
def ofBytes? (text : List UInt8) : Option Written :=
  match value (2 * text.length + 2) text with
  | some (w, rest) => if (skipBlanks rest).isEmpty then some w else none
  | none => none

end Written

end Negotiation.Json
