import Negotiation.Text.Parts

/-!
Addresses of agents: a key, and a label that picks one of the agent's services. The text is the key,
or key and label with a slash between them.
-/

namespace Negotiation

/-- An agent and, with a label, one of its services. -/
structure Address where
  key : String
  label : Option String := none
  deriving DecidableEq, Inhabited

namespace Address

/-- The address of an agent without a label. -/
def ofKey (key : String) : Address := { key }

/-- A label that is empty is no label. -/
def labelOf (label : String) : Option String := if label = "" then none else some label

/-- The agent's address with another label. -/
def withLabel (a : Address) (label : String) : Address := { a with label := labelOf label }

/-- Reads a key that is not empty and at most one label behind it. -/
def parse? (text : String) : Option Address :=
  match Parts.ofText text with
  | [key] => if key = "" then none else some { key }
  | [key, label] => if key = "" then none else some { key, label := labelOf label }
  | _ => none

/-- The text of an address. -/
def text (a : Address) : String :=
  match a.label with
  | some label => a.key ++ "/" ++ label
  | none => a.key

/-- Whether two addresses name one agent. -/
def sameAgent (a b : Address) : Bool := a.key = b.key

end Address

end Negotiation
