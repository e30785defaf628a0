import Negotiation.Agent.Engine

/-!
When a running engine hears what. Sweeps are due at the start and then after every interval, events
come at their times, and the run ends with the shutdown or, without one, behind the last event; a run
without events and shutdown ends behind the sweep of its start. What comes at one time is ordered:
events, shutdown, sweep.
-/

namespace Negotiation.Schedule

/-- The sweeps due before a time, from the sweep of number `k` on. -/
def ticks (interval k before : Nat) : List (Nat × Linked.Signal) :=
  (List.range' k ((before + interval - 1) / interval - k)).map fun j => (j * interval, .tick)

/-- The signals of a run whose sweeps from number `k` on are still due. -/
def signals (interval : Nat) (shutdown : Option Nat) : Nat → List (Nat × Event) →
    List (Nat × Linked.Signal)
  | k, [] =>
    match shutdown with
    | some t => ticks interval k t ++ [(t, .shutdown)]
    | none => ticks interval k 1
  | k, (t, e) :: rest =>
    if shutdown.any (· < t) then signals interval shutdown k []
    else
      let due := ticks interval k t
      due ++ (t, .event e) :: signals interval shutdown (k + due.length) rest

/-- The signals of a run that begins at the time `start`. -/
def ofEvents (limits : Limits) (start : Millis) (events : List (Nat × Event)) (shutdown : Option Nat) :
    List (Millis × Linked.Signal) :=
  (signals (limits.sweepInterval.toNat * 1000) shutdown 0 events).map fun s => (start + s.1, s.2)

end Negotiation.Schedule
