import Negotiation.Dialogue.Failure

/-!
The limits of an agent's dialogues. Windows are given in seconds and used in milliseconds; a window
longer than the clock can count is cut to the longest that it can.
-/

namespace Negotiation

/-- A time or span in milliseconds. -/
abbrev Millis := Int

/-- How many dialogues are held, and for how long. -/
structure Limits where
  /-- Seconds without a step after which a live dialogue times out. -/
  inactivityTimeout : UInt64 := 300
  /-- Seconds for which a closed dialogue is kept. -/
  retention : UInt64 := 60
  /-- The number of dialogues held, closed ones included. -/
  maxDialogues : UInt64 := 10000
  /-- Seconds between two sweeps. -/
  sweepInterval : UInt64 := 5
  deriving DecidableEq, Inhabited

namespace Limits

/-- The longest window in seconds. -/
def longest : Nat := 0x7FFFFFFFFFFFFFFF / 1000

/-- Seconds as a window. -/
def window (seconds : UInt64) : Millis := (min seconds.toNat longest * 1000 : Nat)

/-- The span without a step after which a dialogue times out. -/
def inactivity (l : Limits) : Millis := window l.inactivityTimeout

/-- The span for which a closed dialogue is kept. -/
def keeping (l : Limits) : Millis := window l.retention

/-- The number of dialogues held at most. -/
def capacity (l : Limits) : Nat := l.maxDialogues.toNat

/-- The limit that must be positive and is not. -/
def zero? (l : Limits) : Option String :=
  if l.inactivityTimeout = 0 then some "inactivity_timeout_secs"
  else if l.maxDialogues = 0 then some "max_dialogues"
  else if l.sweepInterval = 0 then some "sweep_interval_secs"
  else none

/-- Refuses limits under which an engine cannot run. -/
def validate (l : Limits) : Except Failure Unit :=
  match l.zero? with
  | some name => .error (.settings (name ++ " must be greater than 0"))
  | none => .ok ()

end Limits

end Negotiation
