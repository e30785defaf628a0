import Negotiation.Json

/-!
The tree of a TOML document. A table is made by its own header, by a header below it or by dotted
keys, and may be made in one way only: a header may complete a table that was only passed through by
headers, and dotted keys may extend what dotted keys made. A document means the JSON value with the
same content; TOML has no null.
-/

namespace Negotiation.Toml

/-- How a table came about. -/
inductive Origin where
  /-- By its own header. -/
  | header
  /-- By the header of a table below it. -/
  | passage
  /-- By dotted keys. -/
  | dotted
  deriving DecidableEq

/-- What stands under a key: a value, a table, or the rows of an array of tables. -/
inductive Node where
  | value (v : Json)
  | table (origin : Origin) (entries : List (String × Node))
  | rows (rows : List (List (String × Node)))

/-- The entries of a table, in the order of their first mention. -/
abbrev Entries := List (String × Node)

namespace Entries

/-- What stands under a key. -/
def find (key : String) : Entries → Option Node
  | [] => none
  | (k, n) :: r => if k = key then some n else find key r

/-- Puts something under a key, at its place or at the end. -/
def put (key : String) (n : Node) : Entries → Entries
  | [] => [(key, n)]
  | (k, m) :: r => if k = key then (k, n) :: r else (k, m) :: put key n r

/-- Changes the table that a header path leads to; tables on the way are made, and a path through an
array of tables leads to its last row. -/
def within (f : Entries → Option Entries) : List String → Entries → Option Entries
  | [], e => f e
  | k :: ks, e =>
    match find k e with
    | none => (within f ks []).map fun t => put k (.table .passage t) e
    | some (.table o t) => (within f ks t).map fun t => put k (.table o t) e
    | some (.rows rs) =>
      match rs.getLast? with
      | some t => (within f ks t).map fun t => put k (.rows (rs.dropLast ++ [t])) e
      | none => none
    | some (.value _) => none

/-- Opens the table of a header: a new one, or one that was passed through. -/
def openTable (key : String) (e : Entries) : Option Entries :=
  match find key e with
  | none => some (put key (.table .header []) e)
  | some (.table .passage t) => some (put key (.table .header t) e)
  | _ => none

/-- Opens a new row of an array of tables. -/
def openRow (key : String) (e : Entries) : Option Entries :=
  match find key e with
  | none => some (put key (.rows [[]]) e)
  | some (.rows rs) => some (put key (.rows (rs ++ [[]])) e)
  | _ => none

/-- Gives a dotted key its value. The table that the last part stands in must be the one where the
key starts or one that dotted keys made; `here` says whether it is. -/
def assign (v : Json) : Bool → List String → String → Entries → Option Entries
  | here, [], key, e => if here ∧ (find key e).isNone then some (put key (.value v) e) else none
  | _, k :: ks, key, e =>
    match find k e with
    | none => (assign v true ks key []).map fun t => put k (.table .dotted t) e
    | some (.table .header _) => none
    | some (.table o t) => (assign v (o = .dotted) ks key t).map fun t => put k (.table o t) e
    | some (.rows rs) =>
      match rs.getLast? with
      | some t => (assign v false ks key t).map fun t => put k (.rows (rs.dropLast ++ [t])) e
      | none => none
    | some (.value _) => none

end Entries

mutual

/-- The value of a node. -/
def Node.json : Node → Json
  | .value v => v
  | .table _ e => .obj (membersOf e)
  | .rows rs => .arr (rowsOf rs)

/-- The members of a table. -/
def membersOf : List (String × Node) → Json.Members
  | [] => []
  | (k, n) :: r => (k, n.json) :: membersOf r

/-- The values of rows. -/
def rowsOf : List (List (String × Node)) → List Json
  | [] => []
  | e :: r => .obj (membersOf e) :: rowsOf r

end

end Negotiation.Toml
