import Negotiation.Forms.Dialogue
import Negotiation.Agent.Handler

/-!
JSON forms of events and actions, whose tag stands among their own members.
-/

namespace Negotiation

open Json

/-- The JSON name of a kind of request. -/
def Operation.tag : Operation → String
  | .registerService => "register_service"
  | .unregisterService => "unregister_service"
  | .registerDescription => "register_description"
  | .unregisterDescription => "unregister_description"
  | .searchServices => "search_services"
  | .searchServicesWide => "search_services_wide"
  | .searchAgents => "search_agents"
  | .sendMessage => "send_message"
  | .other => "other"
  | .badMessage => "bad_message"
  | .badOperation => "bad_operation"

instance : Form Operation where
  encode o := .str o.tag
  decodeWith := decodeNamed Operation.all Operation.tag

instance : Form SearchItem where
  encode i := .obj [("agent_key", encode i.agentKey), ("core_key", encode i.coreKey),
    ("core_address", encode i.coreAddress), ("port", encode i.port), ("distance", encode i.distance)]
  decodeWith naming j := do
    let ms ← j.members? ["agent_key", "core_key", "core_address", "port", "distance"] []
    some {
      agentKey := ← Members.read naming ms "agent_key"
      coreKey := ← Members.read naming ms "core_key"
      coreAddress := ← Members.read naming ms "core_address"
      port := ← Members.read naming ms "port"
      distance := ← Members.readOptional naming ms "distance" }

instance : Form Event where
  encode
    | .agent m => .obj (("event", .str "agent") :: m.members)
    | .searchResult search agents => .obj [("event", .str "search_result"),
        ("search_id", encode search), ("agents", encode agents)]
    | .searchResultWide search items => .obj [("event", .str "search_result_wide"),
        ("search_id", encode search), ("items", encode items)]
    | .requestError request operation cause detail => .obj [("event", .str "oef_error"),
        ("answer_id", encode request), ("operation", encode operation), ("cause", encode cause),
        ("detail", encode detail)]
    | .dialogueError answer dialogue origin => .obj [("event", .str "dialogue_error"),
        ("answer_id", encode answer), ("dialogue_id", encode dialogue), ("origin", encode origin)]
  decodeWith _ j := do
    let (tag, rest) ← aroundTag? "event" j
    match tag with
    | "agent" => (decodeWith .lenient rest).map .agent
    | "search_result" =>
      let ms ← rest.members? ["search_id", "agents"] []
      some (.searchResult (← Members.read .lenient ms "search_id")
        (← Members.read .lenient ms "agents"))
    | "search_result_wide" =>
      let ms ← rest.members? ["search_id", "items"] []
      some (.searchResultWide (← Members.read .lenient ms "search_id")
        (← Members.read .lenient ms "items"))
    | "oef_error" =>
      let ms ← rest.members? ["answer_id", "operation", "cause", "detail"] []
      some (.requestError (← Members.read .lenient ms "answer_id")
        (← Members.read .lenient ms "operation") (← Members.readOptional .lenient ms "cause")
        (← Members.readOptional .lenient ms "detail"))
    | "dialogue_error" =>
      let ms ← rest.members? ["answer_id", "dialogue_id", "origin"] []
      some (.dialogueError (← Members.read .lenient ms "answer_id")
        (← Members.read .lenient ms "dialogue_id") (← Members.read .lenient ms "origin"))
    | _ => none

/-- Reads the dialogue that an action is about when it says nothing else. -/
def aboutDialogue? (rest : Json) : Option DialogueId := do
  Members.read .lenient (← rest.members? ["dialogue_id"] []) "dialogue_id"

instance : Form Action where
  encode
    | .cfp peer payload =>
      .obj [("action", .str "cfp"), ("to", encode peer), ("payload", encode payload)]
    | .propose id proposal =>
      .obj [("action", .str "propose"), ("dialogue_id", encode id), ("proposal", encode proposal)]
    | .accept id => .obj [("action", .str "accept"), ("dialogue_id", encode id)]
    | .decline id => .obj [("action", .str "decline"), ("dialogue_id", encode id)]
    | .message id content =>
      .obj [("action", .str "message"), ("dialogue_id", encode id), ("content", encode content)]
    | .complete id => .obj [("action", .str "complete"), ("dialogue_id", encode id)]
    | .cancel id => .obj [("action", .str "cancel"), ("dialogue_id", encode id)]
  decodeWith _ j := do
    let (tag, rest) ← aroundTag? "action" j
    match tag with
    | "cfp" =>
      let ms ← rest.members? ["to", "payload"] []
      some (.cfp (← Members.read .lenient ms "to") (← Members.read .lenient ms "payload"))
    | "propose" =>
      let ms ← rest.members? ["dialogue_id", "proposal"] []
      some (.propose (← Members.read .lenient ms "dialogue_id")
        (← Members.read .lenient ms "proposal"))
    | "accept" => (aboutDialogue? rest).map .accept
    | "decline" => (aboutDialogue? rest).map .decline
    | "message" =>
      let ms ← rest.members? ["dialogue_id", "content"] []
      some (.message (← Members.read .lenient ms "dialogue_id")
        (← Members.read .lenient ms "content"))
    | "complete" => (aboutDialogue? rest).map .complete
    | "cancel" => (aboutDialogue? rest).map .cancel
    | _ => none

end Negotiation
