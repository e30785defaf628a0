import Negotiation.Dialogue.Message

/-!
What reaches an agent: messages of other agents, results of its searches, and news of requests and
messages of its own that failed.
-/

namespace Negotiation

/-- The number of a request to the broker. -/
abbrev RequestId := UInt32

/-- The kind of request that failed. -/
inductive Operation where
  | registerService
  | unregisterService
  | registerDescription
  | unregisterDescription
  | searchServices
  | searchServicesWide
  | searchAgents
  | sendMessage
  | other
  | badMessage
  | badOperation
  deriving DecidableEq, Inhabited

namespace Operation

/-- The number of a kind. -/
def code : Operation → UInt32
  | .registerService => 0
  | .unregisterService => 1
  | .registerDescription => 2
  | .unregisterDescription => 3
  | .searchServices => 4
  | .searchServicesWide => 5
  | .searchAgents => 6
  | .sendMessage => 7
  | .other => 0x99
  | .badMessage => 0x100
  | .badOperation => 0x101

/-- All kinds. -/
def all : List Operation :=
  [.registerService, .unregisterService, .registerDescription, .unregisterDescription,
    .searchServices, .searchServicesWide, .searchAgents, .sendMessage, .other, .badMessage,
    .badOperation]

/-- The kind of a number; every number without one stands for another kind. -/
def ofCode (n : UInt32) : Operation := (all.find? fun o => o.code = n).getD .other

/-- The text of a kind. -/
def text : Operation → String
  | .registerService => "RegisterService"
  | .unregisterService => "UnregisterService"
  | .registerDescription => "RegisterDescription"
  | .unregisterDescription => "UnregisterDescription"
  | .searchServices => "SearchServices"
  | .searchServicesWide => "SearchServicesWide"
  | .searchAgents => "SearchAgents"
  | .sendMessage => "SendMessage"
  | .other => "Other"
  | .badMessage => "BadMessage"
  | .badOperation => "BadOperation"

end Operation

/-- A service found by a wide search. -/
structure SearchItem where
  agentKey : String
  coreKey : String
  coreAddress : String
  port : UInt16
  /-- Kilometres from the agent that searches. -/
  distance : Option Float
  deriving DecidableEq

/-- Something that reaches an agent. -/
inductive Event where
  | agent (m : Message)
  | searchResult (search : RequestId) (agents : List Address)
  | searchResultWide (search : RequestId) (items : List SearchItem)
  | requestError (request : AnswerId) (operation : Operation) (cause detail : Option String)
  | dialogueError (answer : AnswerId) (dialogue : DialogueId) (origin : Address)
  deriving DecidableEq

end Negotiation
