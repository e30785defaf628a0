import Negotiation.Weather.Station

/-!
Agents that buy one weather measurement at the lowest price. A client calls all stations that its
search finds, waits until each has answered, accepts the cheapest offer (of equal prices that of the
lowest dialogue number) and declines the others. The measurement it then receives is its result.
-/

namespace Negotiation.Weather

/-- The result of a client. -/
structure Purchase where
  /-- The address of the station whose offer was accepted. -/
  station : String
  price : Int64
  /-- The number of offers held. -/
  proposals : Nat
  measurement : Measurement
  deriving DecidableEq

/-- An offer of a station. -/
structure Offer where
  station : Address
  price : Int64
  deriving DecidableEq

/-- A weather client. -/
structure Client where
  /-- The search whose result is negotiated with. -/
  search : Option RequestId := none
  /-- The number of stations that have not answered. -/
  outstanding : Nat := 0
  /-- The dialogues that were answered. -/
  answered : SortedMap DialogueId Unit := .empty
  offers : SortedMap DialogueId Offer := .empty
  accepted : Option (DialogueId × Offer) := none
  /-- The result, once there is one. -/
  purchase : Option Purchase := none
  deriving DecidableEq

namespace Client

/-- What the client searches for. -/
def query : Query := .forModel model

/-- The client with a search to wait for. -/
def expect (c : Client) (search : RequestId) : Client := { c with search := some search }

/-- Whether one offer is better than another: cheaper, or as cheap and of a lower number. -/
def better (a b : DialogueId × Offer) : Bool :=
  a.2.price < b.2.price || a.2.price = b.2.price && a.1 < b.1

/-- The best of some offers. -/
def best? : List (DialogueId × Offer) → Option (DialogueId × Offer)
  | [] => none
  | o :: rest =>
    match best? rest with
    | none => some o
    | some b => if better b o then some b else some o

/-- Accepts the best offer and declines the others, once nothing is outstanding. -/
def conclude (c : Client) : List Action × Client :=
  if c.accepted.isSome ∨ 0 < c.outstanding then ([], c)
  else
    match best? c.offers.toList with
    | none => ([], c)
    | some (winner, offer) =>
      (.accept winner :: (c.offers.keys.filter (· ≠ winner)).map .decline,
        { c with accepted := some (winner, offer) })

/-- Counts an answer, once for each dialogue. -/
def settle (c : Client) (id : DialogueId) : List Action × Client :=
  if c.answered.contains id then c.conclude
  else conclude { c with answered := c.answered.insert id (), outstanding := c.outstanding - 1 }

/-- Forgets an offer and counts an answer. -/
def withdraw (c : Client) (id : DialogueId) : List Action × Client :=
  settle { c with offers := c.offers.erase id } id

/-- The price that a proposal asks. -/
def priceOf (p : Proposal) : Option Int64 :=
  p.offers.head?.bind fun d => (d.get? "price").bind Value.int?

/-- Holds a priced offer until the decision; everything else is declined. -/
def onPropose (c : Client) (d : Dialogue) (p : Proposal) : List Action × Client :=
  match priceOf p, c.accepted with
  | some price, none =>
    settle { c with offers := c.offers.insert d.id ⟨d.counterparty, price⟩ } d.id
  | _, _ =>
    let (actions, c) := c.settle d.id
    (.decline d.id :: actions, c)

/-- Takes the measurement of the accepted station. -/
def onMessage (c : Client) (d : Dialogue) (content : Bytes) : List Action × Client :=
  match c.accepted with
  | none => ([], c)
  | some (winner, offer) =>
    if winner ≠ d.id then ([], c)
    else
      match Measurement.ofBytes? content with
      | none => ([.cancel d.id], c)
      | some measurement =>
        let purchase : Purchase := ⟨offer.station.text, offer.price, c.offers.size, measurement⟩
        ([.complete d.id], { c with purchase := some (c.purchase.getD purchase) })

/-- What the client does. -/
def react (c : Client) : Notice → List Action × Client
  | .searchResult search agents =>
    if c.search = some search then
      (agents.map fun a => .cfp a (.query query),
        { c with outstanding := c.outstanding + agents.length })
    else ([], c)
  | .propose d p => c.onPropose d p
  | .message d content => c.onMessage d content
  | .decline d => c.settle d.id
  | .dialogueError id _ _ => c.withdraw id
  | .timeout d => c.withdraw d.id
  | .actionFailed (.cfp _ _) _ => conclude { c with outstanding := c.outstanding - 1 }
  | _ => ([], c)

/-- The application of a client. -/
def handler : Handler Client := ⟨react⟩

end Client

end Negotiation.Weather
