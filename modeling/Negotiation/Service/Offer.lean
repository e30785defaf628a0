import Negotiation.Service.Description

/-!
What agents ask for and offer: queries for services, calls for proposals, and proposals.
-/

namespace Negotiation

/-- Bytes that the agents give a meaning of their own. -/
abbrev Bytes := List UInt8

/-- A query: services of one model, or of every model. -/
structure Query where
  model : Option Model := none
  constraints : Bytes := []
  deriving DecidableEq, Inhabited

namespace Query

/-- The query that every service matches. -/
def any : Query := {}

/-- The query for the services of one model. -/
def forModel (model : Model) : Query := { model := some model }

/-- The name of the model asked for. -/
def modelName? (q : Query) : Option String := q.model.map (·.name)

/-- Whether a service answers the query: its model has the name asked for. -/
def accepts (q : Query) (d : Description) : Bool :=
  match q.modelName? with
  | some name => d.model.name = name
  | none => true

end Query

/-- What a call for proposals asks for. -/
inductive Cfp where
  | nothing
  | content (bytes : Bytes)
  | query (q : Query)
  deriving DecidableEq, Inhabited

/-- What a proposal offers. -/
inductive Proposal where
  | descriptions (ds : List Description)
  | content (bytes : Bytes)
  deriving DecidableEq

namespace Proposal

/-- The proposal of one description. -/
def single (d : Description) : Proposal := .descriptions [d]

/-- The descriptions offered. -/
def offers : Proposal → List Description
  | .descriptions ds => ds
  | .content _ => []

end Proposal

end Negotiation
