import Negotiation.Agent.Handler

/-!
An application that answers from a script: for each kind of news the script lists what is asked for
the first time, the second time and so on, and nothing is asked for when it is used up.
-/

namespace Negotiation

/-- What is still to be asked for, by the name of the news. -/
abbrev Script := SortedMap String (List (List Action))

namespace Script

/-- The next answer to some news. -/
def react (s : Script) (n : Notice) : List Action × Script :=
  match s.get? n.name with
  | some (actions :: rest) => (actions, s.insert n.name rest)
  | _ => ([], s)

/-- The application of a script. -/
def handler : Handler Script := ⟨react⟩

end Script

end Negotiation
