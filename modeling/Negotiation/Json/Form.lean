import Negotiation.Json
import Negotiation.SortedMap

/-!
Types with a JSON form. `encode` gives the one form that is written; `decode` reads it back and may
read more (records as arrays, fields in any order, integers for fractions). Integers are read from
integers only and must lie in the range of their type. A form says for both kinds of naming what it
reads; a document is read strictly.
-/

namespace Negotiation.Json

/-- A JSON form of a type. -/
class Form (α : Type) where
  encode : α → Json
  decodeWith : Naming → Json → Option α

export Form (encode decodeWith)

/-- Reads a value of a document. -/
def decode {α : Type} [Form α] (j : Json) : Option α := decodeWith .strict j

/-- The integer that a value is, when it lies between `lo` and `hi`. -/
def intIn (lo hi : Int) : Json → Option Int
  | .int n => if lo ≤ n ∧ n ≤ hi then some n else none
  | _ => none

instance : Form Bool where
  encode := .bool
  decodeWith
    | _, .bool b => some b
    | _, _ => none

instance : Form String where
  encode := .str
  decodeWith _ := str?

instance : Form UInt8 where
  encode n := .int n.toNat
  decodeWith _ j := (intIn 0 0xFF j).map fun n => n.toNat.toUInt8

instance : Form UInt16 where
  encode n := .int n.toNat
  decodeWith _ j := (intIn 0 0xFFFF j).map fun n => n.toNat.toUInt16

instance : Form UInt32 where
  encode n := .int n.toNat
  decodeWith _ j := (intIn 0 0xFFFFFFFF j).map fun n => n.toNat.toUInt32

instance : Form UInt64 where
  encode n := .int n.toNat
  decodeWith _ j := (intIn 0 0xFFFFFFFFFFFFFFFF j).map fun n => n.toNat.toUInt64

instance : Form Int64 where
  encode n := .int n.toInt
  decodeWith _ j := (intIn (-0x8000000000000000) 0x7FFFFFFFFFFFFFFF j).map Int64.ofInt

/-- A number that is not finite has no JSON form and is written as null. -/
instance : Form Float where
  encode x := if x.isFinite then .float x else .null
  decodeWith
    | _, .float x => some x
    | _, .int n => some (Float.ofInt n)
    | _, _ => none

instance {α : Type} [Form α] : Form (List α) where
  encode l := .arr (l.map encode)
  decodeWith naming j := j.items?.bind fun items => items.mapM (decodeWith naming)

instance {α β : Type} [Form α] [Form β] : Form (α × β) where
  encode p := .arr [encode p.1, encode p.2]
  decodeWith
    | naming, .arr [a, b] => do some (← decodeWith naming a, ← decodeWith naming b)
    | _, _ => none

instance {α : Type} [Form α] : Form (Option α) where
  encode
    | some a => encode a
    | none => .null
  decodeWith
    | _, .null => some none
    | naming, j => (decodeWith naming j).map some

namespace Members

variable {α : Type} [Form α]

/-- Reads a member that must be there. -/
def read (naming : Naming) (ms : Members) (name : String) : Option α :=
  (Members.get? ms name).bind (decodeWith naming)

/-- Reads a member that may be null or left out. -/
def readOptional (naming : Naming) (ms : Members) (name : String) : Option (Option α) :=
  match Members.given? ms name with
  | none => some none
  | some j => (decodeWith naming j).map some

/-- Reads a member that stands for `fallback` when it is left out. -/
def readOr (naming : Naming) (ms : Members) (name : String) (fallback : α) : Option α :=
  match Members.get? ms name with
  | none => some fallback
  | some j => decodeWith naming j

end Members

/-- Reads one of some named values. -/
def decodeNamed {α : Type} (all : List α) (name : α → String) (naming : Naming) (j : Json) :
    Option α :=
  (j.name? naming).bind fun s => all.find? fun a => name a = s

instance {α : Type} [Form α] : Form (SortedMap String α) where
  encode m := .obj (m.toList.map fun e => (e.1, encode e.2))
  decodeWith
    | naming, .obj ms => (ms.mapM fun e => (decodeWith naming e.2).map (e.1, ·)).map .ofList
    | _, _ => none

end Negotiation.Json
