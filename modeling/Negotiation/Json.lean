/-!
JSON values. A number is an integer when it is written without fraction and exponent and fits 64
bits, and a binary64 number otherwise, so `5` and `5.0` differ. Objects keep the order of their
members; of two members with one name the later counts.
-/

namespace Negotiation

/-- A JSON value. -/
inductive Json where
  | null
  | bool (b : Bool)
  | int (n : Int)
  | float (x : Float)
  | str (s : String)
  | arr (items : List Json)
  | obj (members : List (String × Json))
  deriving Inhabited

namespace Json

/-- The members of an object. -/
abbrev Members := List (String × Json)

/-- The member that counts under a name. -/
def Members.get? : Members → String → Option Json
  | [], _ => none
  | (k, v) :: r, name => (Members.get? r name).or (if k = name then some v else none)

@[simp] theorem Members.get?_nil (name : String) : Members.get? [] name = none := rfl

/-- A member given as null counts as one that is left out. -/
def Members.given? (ms : Members) (name : String) : Option Json :=
  match Members.get? ms name with
  | some .null => none
  | v => v

/-- The members of a record: an object as it is, or an array with the values of its fields in their
order. Of an array only `fields` must be there; those of `defaulted` may be left out at its end. -/
def members? (fields defaulted : List String) : Json → Option Members
  | .obj ms => some ms
  | .arr items =>
    if fields.length ≤ items.length ∧ items.length ≤ fields.length + defaulted.length then
      some ((fields ++ defaulted).zip items)
    else none
  | _ => none

/-- A member of an object; none for any other value. -/
def get? (j : Json) (name : String) : Option Json :=
  match j with
  | .obj ms => Members.get? ms name
  | _ => none

/-- How names are read. Leniency is for content that had to be set aside until its tag was known. -/
inductive Naming where
  | strict
  | lenient
  deriving DecidableEq

/-- A plain name: a string, or an object whose only member has that name and says nothing. That is a
null and, leniently, also an empty object. -/
def name? (naming : Naming) : Json → Option String
  | .str s => some s
  | .obj [(s, .null)] => some s
  | .obj [(s, .obj [])] => if naming = .lenient then some s else none
  | _ => none

/-- Whether a value is null. -/
def isNull : Json → Bool
  | .null => true
  | _ => false

/-- The string that a value is. -/
def str? : Json → Option String
  | .str s => some s
  | _ => none

/-- The items of an array. -/
def items? : Json → Option (List Json)
  | .arr items => some items
  | _ => none

end Json

end Negotiation
