import Negotiation.Agent.Script
import Negotiation.Weather.Client

/-!
The applications of this library as one type, so that agents of different kinds can share a broker.
-/

namespace Negotiation

/-- An application with its memory. -/
inductive Application where
  | idle
  | scripted (s : Script)
  | station (s : Weather.Station)
  | client (c : Weather.Client)

namespace Application

/-- What an application does. -/
def react : Application → Notice → List Action × Application
  | .idle, _ => ([], .idle)
  | .scripted s, n => let (actions, s) := s.react n; (actions, .scripted s)
  | .station s, n => let (actions, s) := s.react n; (actions, .station s)
  | .client c, n => let (actions, c) := c.react n; (actions, .client c)

/-- Applications as a handler. -/
def handler : Handler Application := ⟨react⟩

/-- What a client has bought; nothing for other applications. -/
def purchase? : Application → Option Weather.Purchase
  | .client c => c.purchase
  | _ => none

/-- A bound on the actions that one event leads to: those asked for at once, and those asked for when
some of them fail. A client then accepts and declines the offers that it holds; a script gives no more
than it has. -/
def effort : Application → Event → Nat
  | .idle, _ => 0
  | .scripted s, _ =>
    s.values.foldr (fun answers n => answers.flatten.length + n) 0
  | .station _, _ => 2
  | .client c, .searchResult _ agents => agents.length + c.offers.size
  | .client c, _ => c.offers.size + 2

end Application

end Negotiation
