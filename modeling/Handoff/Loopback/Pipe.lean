import Handoff.Transport

/-!
One direction of a connection. Bytes are written at one end and read at the other in the same
order; either end closes its side for good. Closing the reading side drops what is unread, closing
the writing side leaves it to be read.
-/
namespace Handoff.Loopback

structure Pipe where
  buffer : List UInt8
  writeClosed : Bool
  readClosed : Bool
  deriving DecidableEq, Repr

namespace Pipe

def empty : Pipe := ⟨[], false, false⟩

/-- Appends all of the data, or nothing if either side is closed. -/
def write (p : Pipe) (data : List UInt8) : Except IoError Nat × Pipe :=
  if p.writeClosed || p.readClosed then (.error (.plain .brokenPipe), p)
  else (.ok data.length, { p with buffer := p.buffer ++ data })

/-- Takes up to `room` bytes. An empty pipe that may still be written to makes the reader wait; any
other gives no bytes. -/
def read (p : Pipe) (room : Nat) : Option (List UInt8 × Pipe) :=
  if room = 0 then some ([], p)
  else if p.buffer ≠ [] then some (p.buffer.take room, { p with buffer := p.buffer.drop room })
  else if p.writeClosed || p.readClosed then some ([], p)
  else none

def closeWrite (p : Pipe) : Pipe := { p with writeClosed := true }

def closeRead (p : Pipe) : Pipe := { p with readClosed := true, buffer := [] }

theorem buffer_eq_of_read {p p' : Pipe} {room : Nat} {bytes : List UInt8}
    (h : p.read room = some (bytes, p')) : p.buffer = bytes ++ p'.buffer := by
  unfold read at h
  split at h
  · simp at h; simp [← h]
  split at h
  · simp at h; simp [← h]
  split at h
  · simp at h; simp [← h]
  · simp at h

end Pipe

/-- The two ends of a connection: the one that asked for it and the one that is accepted. -/
inductive Side where
  | caller | callee
  deriving DecidableEq, Repr

def Side.other : Side → Side
  | .caller => .callee
  | .callee => .caller

/-- Two pipes, named for the side that reads from them. -/
structure Connection where
  toCallee : Pipe
  toCaller : Pipe
  deriving DecidableEq, Repr

namespace Connection

def fresh : Connection := ⟨.empty, .empty⟩

/-- The pipe that a side reads from. -/
def incoming (c : Connection) : Side → Pipe
  | .caller => c.toCaller
  | .callee => c.toCallee

/-- The pipe that a side writes to. -/
def outgoing (c : Connection) (side : Side) : Pipe := c.incoming side.other

def setIncoming (c : Connection) (side : Side) (p : Pipe) : Connection :=
  match side with
  | .caller => { c with toCaller := p }
  | .callee => { c with toCallee := p }

def setOutgoing (c : Connection) (side : Side) (p : Pipe) : Connection :=
  c.setIncoming side.other p

def shutRead (c : Connection) (side : Side) : Connection :=
  c.setIncoming side (c.incoming side).closeRead

def shutWrite (c : Connection) (side : Side) : Connection :=
  c.setOutgoing side (c.outgoing side).closeWrite

/-- Ends the directions that a side names. -/
def shut (c : Connection) (side : Side) : Direction → Connection
  | .read => c.shutRead side
  | .write => c.shutWrite side
  | .both => (c.shutRead side).shutWrite side

/-- The bytes under way in both directions. -/
def buffered (c : Connection) : Nat := c.toCallee.buffer.length + c.toCaller.buffer.length

theorem buffered_setIncoming_lt {c : Connection} {side : Side} {p : Pipe}
    (h : p.buffer.length < (c.incoming side).buffer.length) :
    (c.setIncoming side p).buffered < c.buffered := by
  cases side <;> simp [setIncoming, buffered, incoming] at h ⊢ <;> omega

end Connection
end Handoff.Loopback
