import Negotiation.Forms.Service
import Negotiation.Dialogue

/-!
JSON forms of addresses, routes, states and messages. An address is read as it stands: a label that
is empty stays.
-/

namespace Negotiation

open Json

instance : Form Address where
  encode a := .obj [("key", encode a.key), ("alias", encode a.label)]
  decodeWith naming j := do
    let ms ← j.members? ["key", "alias"] []
    some { key := ← Members.read naming ms "key", label := ← Members.readOptional naming ms "alias" }

instance : Form Uri where
  encode u := .obj [("protocol", encode u.protocol), ("core_uri", encode u.coreUri),
    ("core_key", encode u.coreKey), ("namespaces", encode u.namespaces),
    ("agent_key", encode u.agentKey), ("agent_alias", encode u.label), ("empty", encode u.empty)]
  decodeWith naming j := do
    let ms ← j.members?
      ["protocol", "core_uri", "core_key", "namespaces", "agent_key", "agent_alias", "empty"] []
    some {
      protocol := ← Members.read naming ms "protocol"
      coreUri := ← Members.read naming ms "core_uri"
      coreKey := ← Members.read naming ms "core_key"
      namespaces := ← Members.read naming ms "namespaces"
      agentKey := ← Members.read naming ms "agent_key"
      label := ← Members.read naming ms "agent_alias"
      empty := ← Members.read naming ms "empty" }

/-- The JSON name of a direction. -/
def Direction.tag : Direction → String
  | .inbound => "inbound"
  | .outbound => "outbound"

instance : Form Direction where
  encode d := .str d.tag
  decodeWith := decodeNamed [.inbound, .outbound] Direction.tag

instance : Form Route where
  encode r := .obj [("source", encode r.source), ("target", encode r.target),
    ("direct", encode r.direct), ("direction", encode r.direction), ("service_id", encode r.service)]
  decodeWith naming j := do
    let ms ← j.members? ["source", "target", "direct", "direction", "service_id"] []
    some {
      source := ← Members.read naming ms "source"
      target := ← Members.read naming ms "target"
      direct := ← Members.read naming ms "direct"
      direction := ← Members.read naming ms "direction"
      service := ← Members.read naming ms "service_id" }

instance : Form Step where
  encode s := .str s.name
  decodeWith := decodeNamed [.cfp, .propose, .accept, .decline, .message] Step.name

/-- The JSON name of a reason. -/
def CloseReason.tag : CloseReason → String
  | .declined => "declined"
  | .completed => "completed"
  | .aborted => "aborted"
  | .timedOut => "timed_out"

instance : Form CloseReason where
  encode r := .str r.tag
  decodeWith := decodeNamed [.declined, .completed, .aborted, .timedOut] CloseReason.tag

instance : Form State where
  encode
    | .closed reason => .obj [("closed", encode reason)]
    | s => .str s.text
  decodeWith
    | naming, .obj [("closed", reason)] => (decodeWith naming reason).map .closed
    | naming, j => decodeNamed [.idle, .cfpSent, .cfpReceived, .proposalSent, .proposalReceived,
        .accepted, .messaging] State.text naming j

/-- The JSON name of a transition that is no step. -/
def Transition.tag : Transition → String
  | .step _ _ => "step"
  | .complete => "complete"
  | .cancel => "cancel"
  | .dialogueError => "dialogue_error"
  | .timeout => "timeout"

instance : Form Transition where
  encode
    | .step s d => .obj [("step", .obj [("step", encode s), ("direction", encode d)])]
    | t => .str t.tag
  decodeWith
    | naming, .obj [("step", .obj ms)] => do
      some (.step (← Members.read naming ms "step") (← Members.read naming ms "direction"))
    | naming, j => decodeNamed [.complete, .cancel, .dialogueError, .timeout] Transition.tag naming j

/-- The JSON name of a role. -/
def Role.tag : Role → String
  | .initiator => "initiator"
  | .responder => "responder"

instance : Form Role where
  encode r := .str r.tag
  decodeWith := decodeNamed [.initiator, .responder] Role.tag

instance : Form Body where
  encode
    | .cfp payload => tagged "kind" "payload" "cfp" (encode payload)
    | .propose proposal => tagged "kind" "payload" "propose" (encode proposal)
    | .accept => .obj [("kind", .str "accept")]
    | .decline => .obj [("kind", .str "decline")]
    | .message content => tagged "kind" "payload" "message" (encode content)
  decodeWith naming j := do
    let (tag, content, naming) ←
      besideTag? "kind" "payload" ["cfp", "propose", "accept", "decline", "message"] naming j
    match tag with
    | "cfp" => (decodeWith naming content).map .cfp
    | "propose" => (decodeWith naming content).map .propose
    | "accept" => if content.isNull then some .accept else none
    | "decline" => if content.isNull then some .decline else none
    | "message" => (decodeWith naming content).map .message
    | _ => none

namespace Message

/-- The members of a message. -/
def members (m : Message) : Members :=
  [("answer_id", encode m.answer), ("dialogue_id", encode m.dialogue), ("origin", encode m.origin),
    ("target", encode m.target), ("body", encode m.body), ("source_uri", encode m.sourceUri),
    ("target_uri", encode m.targetUri)]

end Message

instance : Form Message where
  encode m := .obj m.members
  decodeWith naming j := do
    let ms ← j.members? ["answer_id", "dialogue_id", "origin", "target", "body"]
      ["source_uri", "target_uri"]
    some {
      answer := ← Members.read naming ms "answer_id"
      dialogue := ← Members.read naming ms "dialogue_id"
      origin := ← Members.read naming ms "origin"
      target := ← Members.read naming ms "target"
      body := ← Members.read naming ms "body"
      sourceUri := ← Members.readOr naming ms "source_uri" ""
      targetUri := ← Members.readOr naming ms "target_uri" "" }

instance : Form Outgoing where
  encode m := .obj [("answer_id", encode m.answer), ("dialogue_id", encode m.dialogue),
    ("target", encode m.target), ("context", encode m.route), ("body", encode m.body)]
  decodeWith naming j := do
    let ms ← j.members? ["answer_id", "dialogue_id", "target", "context", "body"] []
    some {
      answer := ← Members.read naming ms "answer_id"
      dialogue := ← Members.read naming ms "dialogue_id"
      target := ← Members.read naming ms "target"
      route := ← Members.read naming ms "context"
      body := ← Members.read naming ms "body" }

instance : Form Limits where
  encode l := .obj [("inactivity_timeout_secs", encode l.inactivityTimeout),
    ("retention_secs", encode l.retention), ("max_dialogues", encode l.maxDialogues),
    ("sweep_interval_secs", encode l.sweepInterval)]
  decodeWith naming j := do
    let ms ← j.members? []
      ["inactivity_timeout_secs", "retention_secs", "max_dialogues", "sweep_interval_secs"]
    let standard : Limits := {}
    some {
      inactivityTimeout := ← Members.readOr naming ms "inactivity_timeout_secs" standard.inactivityTimeout
      retention := ← Members.readOr naming ms "retention_secs" standard.retention
      maxDialogues := ← Members.readOr naming ms "max_dialogues" standard.maxDialogues
      sweepInterval := ← Members.readOr naming ms "sweep_interval_secs" standard.sweepInterval }

end Negotiation
