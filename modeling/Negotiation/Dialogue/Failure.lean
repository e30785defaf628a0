import Negotiation.Dialogue.Message
import Negotiation.Text.Quoted

/-!
What can go wrong in negotiations, by cause. A full table is the only failure that an engine does not
survive.
-/

namespace Negotiation

/-- Why a message or request was not taken for delivery. -/
inductive TransportError where
  | disconnected
  | refused (reason : String)
  | unknownDestination (name : String)
  deriving DecidableEq

/-- The wording of a transport error. -/
def TransportError.message : TransportError → String
  | .disconnected => "broker connection closed"
  | .refused reason => "send failed: " ++ reason
  | .unknownDestination name => "unknown destination: " ++ name

/-- Why a negotiation did not go on. -/
inductive Failure where
  | illegalTransition (dialogue : DialogueId) (state : State) (transition : Transition)
  | outOfSequence (dialogue : DialogueId) (answer target expected : AnswerId)
  | counterpartyMismatch (dialogue : DialogueId) (expected actual : Address)
  | unknownDialogue (dialogue : DialogueId)
  | dialogueConflict (dialogue : DialogueId)
  | tableFull (capacity : UInt64)
  | transport (e : TransportError)
  | settings (text : String)
  | invalidAddress (text : String)
  deriving DecidableEq

namespace Failure

/-- Whether the engine stops. -/
def isFatal : Failure → Bool
  | .tableFull _ => true
  | _ => false

/-- The dialogue that is concerned. -/
def dialogue? : Failure → Option DialogueId
  | .illegalTransition d _ _ => some d
  | .outOfSequence d _ _ _ => some d
  | .counterpartyMismatch d _ _ => some d
  | .unknownDialogue d => some d
  | .dialogueConflict d => some d
  | _ => none

/-- The wording of a failure. -/
def message : Failure → String
  | .illegalTransition d state transition =>
    "dialogue " ++ toString d.toNat ++ ": cannot " ++ transition.text ++ " in state " ++ state.text
  | .outOfSequence d answer target expected =>
    "dialogue " ++ toString d.toNat ++ ": message " ++ toString answer.toNat ++ " targets "
      ++ toString target.toNat ++ ", expected target " ++ toString expected.toNat
  | .counterpartyMismatch d expected actual =>
    "dialogue " ++ toString d.toNat ++ ": message from " ++ actual.text ++ ", counterparty is "
      ++ expected.text
  | .unknownDialogue d => "unknown dialogue " ++ toString d.toNat
  | .dialogueConflict d =>
    "dialogue " ++ toString d.toNat ++ " already exists with another counterparty"
  | .tableFull capacity => "dialogue table full (" ++ toString capacity.toNat ++ " dialogues)"
  | .transport e => "transport error: " ++ e.message
  | .settings text => "configuration error: " ++ text
  | .invalidAddress text => "invalid agent address: " ++ Text.quoted text

end Failure

/-- Reads an address. -/
def Address.parse (text : String) : Except Failure Address :=
  match Address.parse? text with
  | some a => .ok a
  | none => .error (.invalidAddress text)

end Negotiation
