import Negotiation.Agent.Event
import Negotiation.Dialogue

/-!
The application behind an agent. An engine tells it what happened, and it answers with the actions
that it wants performed; in between it keeps a memory of its own.
-/

namespace Negotiation

/-- Something that an application asks its engine to do. -/
inductive Action where
  | cfp (peer : Address) (payload : Cfp)
  | propose (dialogue : DialogueId) (proposal : Proposal)
  | accept (dialogue : DialogueId)
  | decline (dialogue : DialogueId)
  | message (dialogue : DialogueId) (content : Bytes)
  | complete (dialogue : DialogueId)
  | cancel (dialogue : DialogueId)
  deriving DecidableEq

/-- The dialogue that an action is about. -/
def Action.dialogue? : Action → Option DialogueId
  | .cfp _ _ => none
  | .propose d _ => some d
  | .accept d => some d
  | .decline d => some d
  | .message d _ => some d
  | .complete d => some d
  | .cancel d => some d

/-- Something that an application is told. -/
inductive Notice where
  | cfp (d : Dialogue) (payload : Cfp)
  | propose (d : Dialogue) (proposal : Proposal)
  | accept (d : Dialogue)
  | decline (d : Dialogue)
  | message (d : Dialogue) (content : Bytes)
  | searchResult (search : RequestId) (agents : List Address)
  | searchResultWide (search : RequestId) (items : List SearchItem)
  | requestError (request : AnswerId) (operation : Operation) (cause detail : Option String)
  | dialogueError (dialogue : DialogueId) (origin : Address) (d : Option Dialogue)
  | timeout (d : Dialogue)
  | rejected (m : Message) (e : Failure)
  | actionFailed (action : Action) (e : Failure)
  deriving DecidableEq

namespace Notice

/-- The news of a step that was received. -/
def ofBody (d : Dialogue) : Body → Notice
  | .cfp payload => .cfp d payload
  | .propose proposal => .propose d proposal
  | .accept => .accept d
  | .decline => .decline d
  | .message content => .message d content

/-- The name of a kind of news. -/
def name : Notice → String
  | .cfp .. => "cfp"
  | .propose .. => "propose"
  | .accept _ => "accept"
  | .decline _ => "decline"
  | .message .. => "message"
  | .searchResult .. => "search_result"
  | .searchResultWide .. => "search_result_wide"
  | .requestError .. => "oef_error"
  | .dialogueError .. => "dialogue_error"
  | .timeout _ => "timeout"
  | .rejected .. => "rejected"
  | .actionFailed .. => "action_failed"

end Notice

/-- An application with memory `σ`. -/
structure Handler (σ : Type) where
  react : σ → Notice → List Action × σ

end Negotiation
