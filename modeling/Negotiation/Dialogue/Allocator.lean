import Negotiation.Dialogue.Message

/-!
Numbers for new dialogues: the non-zero numbers in a circle, from a starting point on. A number that
is taken is passed over.
-/

namespace Negotiation

/-- The number that is tried next. -/
structure Allocator where
  next : UInt32
  deriving DecidableEq, Inhabited

namespace Allocator

/-- The number that is tried now; 0 stands for 1. -/
def candidate (a : Allocator) : DialogueId := if a.next = 0 then 1 else a.next

/-- The allocator behind the number that is tried now. -/
def advance (a : Allocator) : Allocator := ⟨a.candidate + 1⟩

/-- The first of `attempts` numbers that is not taken. -/
def allocate (taken : DialogueId → Bool) : Nat → Allocator → Option DialogueId × Allocator
  | 0, a => (none, a)
  | attempts + 1, a =>
    if taken a.candidate then allocate taken attempts a.advance else (some a.candidate, a.advance)

/-- The numbers that an allocation asks about, in order. -/
def asked (taken : DialogueId → Bool) : Nat → Allocator → List DialogueId
  | 0, _ => []
  | attempts + 1, a =>
    a.candidate :: if taken a.candidate then asked taken attempts a.advance else []

end Allocator

end Negotiation
