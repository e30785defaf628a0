import Negotiation.Dialogue
import Negotiation.Dialogue.Allocator

/-!
The dialogues of one agent. Live and closed dialogues count towards the capacity; closed ones stay
for the retention window, so that late copies of their messages are still recognised. Every
operation concerns one dialogue, apart from the sweep, and an operation that fails changes no
dialogue.
-/

namespace Negotiation

/-- The dialogues of one agent by number. -/
structure Table where
  limits : Limits
  allocator : Allocator
  dialogues : SortedMap DialogueId Dialogue := .empty
  deriving DecidableEq

/-- What a sweep did: the dialogues that timed out, as they were closed, and the numbers of those
that were removed, both by number. -/
structure Sweep where
  timedOut : List Dialogue
  evicted : List DialogueId
  deriving DecidableEq

/-- Whether a sweep changed nothing. -/
def Sweep.isEmpty (s : Sweep) : Bool := s.timedOut.isEmpty && s.evicted.isEmpty

namespace Table

/-- A table without dialogues whose numbers start at `start`. -/
def new (limits : Limits) (start : UInt32) : Table := { limits, allocator := ⟨start⟩ }

/-- The number of dialogues held. -/
def size (t : Table) : Nat := t.dialogues.size

/-- Whether a number is held. -/
def contains (t : Table) (id : DialogueId) : Bool := t.dialogues.contains id

/-- The dialogue of a number. -/
def get? (t : Table) (id : DialogueId) : Option Dialogue := t.dialogues.get? id

/-- The dialogue of a number, which must be held. -/
def get (t : Table) (id : DialogueId) : Except Failure Dialogue :=
  match t.get? id with
  | some d => .ok d
  | none => .error (.unknownDialogue id)

/-- The dialogues that are not closed, by number. -/
def live (t : Table) : List Dialogue := t.dialogues.values.filter fun d => !d.isClosed

/-- Puts a dialogue under its number. -/
def put (t : Table) (d : Dialogue) : Table := { t with dialogues := t.dialogues.insert d.id d }

/-- Removes a dialogue. -/
def remove (t : Table) (id : DialogueId) : Table := { t with dialogues := t.dialogues.erase id }

/-- Whether there is no room for another dialogue. -/
def isFull (t : Table) : Bool := t.limits.capacity ≤ t.size

/-- The failure of a table without room. -/
def full (t : Table) : Failure := .tableFull t.limits.maxDialogues

/-- The dialogue of a number, which is made if it is not held. -/
def createOrGet (t : Table) (id : DialogueId) (counterparty : Address) (role : Role) (now : Millis) :
    Except Failure (Dialogue × Table) :=
  match t.get? id with
  | some d => if d.counterparty.sameAgent counterparty then .ok (d, t) else .error (.dialogueConflict id)
  | none =>
    if t.isFull then .error t.full
    else
      let d := Dialogue.new id counterparty role now
      .ok (d, t.put d)

/-- Makes a dialogue under a free number. One more number is tried than there are dialogues. -/
def openOutbound (t : Table) (counterparty : Address) (now : Millis) :
    Except Failure DialogueId × Table :=
  if t.isFull then (.error t.full, t)
  else
    match t.allocator.allocate t.contains (t.size + 1) with
    | (some id, allocator) =>
      (.ok id, { t with allocator }.put (Dialogue.new id counterparty .initiator now))
    | (none, allocator) => (.error t.full, { t with allocator })

/-- Takes a message. One that can open a dialogue makes one when its number is not held. -/
def receive (t : Table) (m : Message) (route : Route) (now : Millis) :
    Except Failure (Dialogue × Table) :=
  match t.get? m.dialogue with
  | some d => do
    let d ← d.receive m route now
    .ok (d, t.put d)
  | none =>
    if ¬ m.body.step.opens then .error (.unknownDialogue m.dialogue)
    else if t.isFull then .error t.full
    else do
      let d ← (Dialogue.new m.dialogue m.origin .responder now).receive m route now
      .ok (d, t.put d)

/-- Sends a step in a dialogue. -/
def send (t : Table) (id : DialogueId) (step : Step) (home : Address) (now : Millis) :
    Except Failure (Stamp × Table) := do
  let d ← t.get id
  let (stamp, d) ← d.send step home now
  .ok (stamp, t.put d)

/-- Applies an event to a dialogue. -/
def apply (t : Table) (id : DialogueId) (event : Transition) (now : Millis) :
    Except Failure (State × Table) := do
  let d ← t.get id
  let d ← d.apply event now
  .ok (d.state, t.put d)

/-- The dialogue closed by timeout if it has been idle too long. -/
def timeOut? (l : Limits) (now : Millis) (d : Dialogue) : Option Dialogue :=
  if d.isIdle now l.inactivity then (d.apply .timeout now).toOption else none

/-- Times out what has been idle too long, and then removes what has been closed too long. -/
def sweep (t : Table) (now : Millis) : Sweep × Table :=
  let swept := t.dialogues.map fun _ d => (timeOut? t.limits now d).getD d
  let expired (d : Dialogue) : Bool := d.isExpired now t.limits.keeping
  (⟨t.dialogues.values.filterMap (timeOut? t.limits now),
    (swept.filter fun _ d => expired d).keys⟩,
   { t with dialogues := swept.filter fun _ d => !expired d })

end Table

end Negotiation
