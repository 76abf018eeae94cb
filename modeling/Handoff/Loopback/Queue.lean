import Handoff.Address.Descriptor

/-!
The connections that a listening socket has been asked for and has not accepted, first come first
served. A closed queue takes no more.
-/
namespace Handoff.Loopback

/-- A connection in a queue: the addresses of its accepted end and of its caller. -/
structure Pending where
  own : Descriptor
  peer : Descriptor
  connection : Nat
  deriving DecidableEq, Repr

structure Queue where
  pending : List Pending
  backlog : Nat
  closed : Bool
  deriving DecidableEq, Repr

namespace Queue

/-- A queue has room for one connection at least. -/
def ofBacklog (backlog : UInt32) : Queue := ⟨[], max 1 backlog.toNat, false⟩

def takes (q : Queue) : Bool := !q.closed && q.pending.length < q.backlog

def push (q : Queue) (c : Pending) : Queue := { q with pending := q.pending ++ [c] }

/-- Refuses all that come later and forgets those that wait. -/
def close (q : Queue) : Queue := { q with pending := [], closed := true }

end Queue
end Handoff.Loopback
