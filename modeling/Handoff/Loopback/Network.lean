import Handoff.Loopback.Pipe
import Handoff.Loopback.Queue
import Handoff.Loopback.Registry

/-!
Stream sockets within one process, all in one context and with one registry of endpoints.

Sockets, queues and connections are numbered in the order in which they are made, and a number is
never used again: a socket that was given up is closed, a queue of a listener that was given up is
closed. An operation that cannot be finished yet gives `none`.

Connecting is made of three sections, each of them indivisible: looking the target up and choosing
the caller's endpoint (`route`), joining the queue (`enqueue`), and, for a caller that the queue
refused, giving the endpoint back (`unroute`). Giving a listener up is made of two: closing the
queue (`closeQueue`) and giving the endpoint back.
-/
namespace Handoff.Loopback

inductive Slot where
  | fresh
  | bound (own : Descriptor)
  | listening (own : Descriptor) (queue : Nat)
  | connected (own : Descriptor) (connection : Nat) (side : Side)
  | closed
  deriving DecidableEq, Repr

structure Network where
  cid : UInt32
  registry : Registry
  /-- The port to try first for who asks for none in particular. -/
  counter : UInt32
  slots : List Slot
  queues : List Queue
  connections : List Connection
  deriving DecidableEq, Repr

namespace Network

abbrev Reply (α : Type) := Option (Except IoError α × Network)

def ofCid (cid : UInt32) : Network := ⟨cid, [], firstPort, [], [], []⟩

/-- The number of endpoints in use. -/
def boundEndpoints (n : Network) : Nat := n.registry.length

def slot (n : Network) (s : Nat) : Slot := n.slots[s]?.getD .closed

def setSlot (n : Network) (s : Nat) (t : Slot) : Network := { n with slots := n.slots.set s t }

def release (n : Network) (e : Endpoint) : Network := { n with registry := n.registry.erase e }

def modifyConnection (n : Network) (c : Nat) (f : Connection → Connection) : Network :=
  { n with connections := n.connections.modify c f }

def invalid (message : String) : IoError := .custom .invalidInput message

def socket (n : Network) : Reply Nat :=
  some (.ok n.slots.length, { n with slots := n.slots ++ [.fresh] })

/-- The port asked for, or a free one for the wildcard. -/
def choosePort (n : Network) (cid port : UInt32) : Option (UInt32 × Network) :=
  if port = anyPort then
    (allocate? n.registry cid n.counter).map fun (p, next) => (p, { n with counter := next })
  else some (port, n)

def bind (n : Network) (s : Nat) (a : Descriptor) : Reply Unit :=
  match n.slot s with
  | .fresh =>
    let cid := if a.cid = anyCid then n.cid else a.cid
    match n.choosePort cid a.port with
    | none => none
    | some (port, n) =>
      if n.registry.has ⟨cid, port⟩ then some (.error (.plain .addrInUse), n)
      else
        let n := { n with registry := n.registry.put ⟨cid, port⟩ none }
        some (.ok (), n.setSlot s (.bound (Descriptor.local cid port)))
  | _ => some (.error (invalid "socket is already bound"), n)

def listen (n : Network) (s : Nat) (backlog : UInt32) : Reply Unit :=
  match n.slot s with
  | .bound own =>
    let q := n.queues.length
    let n := { n with
      queues := n.queues ++ [Queue.ofBacklog backlog]
      registry := n.registry.put own.endpoint (some q) }
    some (.ok (), n.setSlot s (.listening own q))
  | _ => some (.error (invalid "socket is not bound"), n)

/-- Takes the first connection out of a queue. An empty queue makes the caller wait while it is
open. -/
def dequeue (n : Network) (q : Nat) : Reply Pending :=
  match n.queues[q]? with
  | none => some (.error (.plain .connectionAborted), n)
  | some queue =>
    match queue.pending with
    | p :: rest =>
      some (.ok p, { n with queues := n.queues.set q { queue with pending := rest } })
    | [] => if queue.closed then some (.error (.plain .connectionAborted), n) else none

/-- The accepted end of a connection is a new socket. -/
def accept (n : Network) (s : Nat) : Reply (Nat × Descriptor) :=
  match n.slot s with
  | .listening _ q =>
    match n.dequeue q with
    | none => none
    | some (.error e, n) => some (.error e, n)
    | some (.ok p, n) =>
      some (.ok (n.slots.length, p.peer),
        { n with slots := n.slots ++ [.connected p.own p.connection .callee] })
  | _ => some (.error (invalid "socket is not listening"), n)

/-- The queue to join at a target and the caller's own address. A caller that is not bound is given
an endpoint here. -/
def route (n : Network) (bound : Option Descriptor) (target : Descriptor) :
    Reply (Nat × Descriptor) :=
  match n.registry.queue? target.endpoint with
  | none => some (.error (.plain .connectionRefused), n)
  | some q =>
    match bound with
    | some own => some (.ok (q, own), n)
    | none =>
      match allocate? n.registry n.cid n.counter with
      | none => none
      | some (port, next) =>
        some (.ok (q, Descriptor.local n.cid port),
          { n with counter := next, registry := n.registry.put ⟨n.cid, port⟩ none })

/-- Joins a queue with a new connection, if the queue takes it. -/
def enqueue (n : Network) (q : Nat) (own target : Descriptor) : Option (Nat × Network) :=
  match n.queues[q]? with
  | none => none
  | some queue =>
    if queue.takes then
      let c := n.connections.length
      let p : Pending :=
        { own := Descriptor.local target.cid target.port
          peer := Descriptor.peer own.cid own.port
          connection := c }
      some (c, { n with
        queues := n.queues.set q (queue.push p)
        connections := n.connections ++ [.fresh] })
    else none

/-- Takes back the endpoint that `route` gave to a caller that was not bound. -/
def unroute (n : Network) (bound : Option Descriptor) (own : Descriptor) : Network :=
  match bound with
  | some _ => n
  | none => n.release own.endpoint

/-- Connects a socket that is bound, or not yet. -/
def connectFrom (n : Network) (s : Nat) (bound : Option Descriptor) (target : Descriptor) :
    Reply Unit :=
  match n.route bound target with
  | none => none
  | some (.error e, n) => some (.error e, n)
  | some (.ok (q, own), n) =>
    match n.enqueue q own target with
    | none => some (.error (.plain .connectionRefused), n.unroute bound own)
    | some (c, n) => some (.ok (), n.setSlot s (.connected own c .caller))

def connect (n : Network) (s : Nat) (target : Descriptor) : Reply Unit :=
  match n.slot s with
  | .fresh => n.connectFrom s none target
  | .bound own => n.connectFrom s (some own) target
  | _ => some (.error (invalid "socket is already connected or listening"), n)

def send (n : Network) (s : Nat) (data : List UInt8) : Reply Nat :=
  match n.slot s with
  | .connected _ c side =>
    match n.connections[c]? with
    | none => some (.error (.plain .notConnected), n)
    | some conn =>
      match (conn.outgoing side).write data with
      | (.error e, _) => some (.error e, n)
      | (.ok k, p) =>
        some (.ok k, { n with connections := n.connections.set c (conn.setOutgoing side p) })
  | _ => some (.error (.plain .notConnected), n)

def recv (n : Network) (s : Nat) (room : Nat) : Reply (List UInt8) :=
  match n.slot s with
  | .connected _ c side =>
    match n.connections[c]? with
    | none => some (.error (.plain .notConnected), n)
    | some conn =>
      match (conn.incoming side).read room with
      | none => none
      | some (bytes, p) =>
        some (.ok bytes, { n with connections := n.connections.set c (conn.setIncoming side p) })
  | _ => some (.error (.plain .notConnected), n)

def shutdown (n : Network) (s : Nat) (how : Direction) : Reply Unit :=
  match n.slot s with
  | .connected _ c side => some (.ok (), n.modifyConnection c (·.shut side how))
  | _ => some (.error (.plain .notConnected), n)

def localAddr (n : Network) (s : Nat) : Reply Descriptor :=
  match n.slot s with
  | .fresh => some (.ok (Descriptor.local n.cid anyPort), n)
  | .bound own | .listening own _ | .connected own _ _ => some (.ok own, n)
  | .closed => some (.error (.plain .notConnected), n)

/-- Closes a queue. The connections in it lose their accepted end. -/
def closeQueue (n : Network) (q : Nat) : Network :=
  match n.queues[q]? with
  | none => n
  | some queue =>
    queue.pending.foldl (fun n p => n.modifyConnection p.connection (·.shut .callee .both))
      { n with queues := n.queues.set q queue.close }

/-- Gives a socket up. An accepted end holds no endpoint of its own. -/
def drop (n : Network) (s : Nat) : Network :=
  match n.slot s with
  | .fresh => n.setSlot s .closed
  | .bound own => (n.release own.endpoint).setSlot s .closed
  | .listening own q => ((n.closeQueue q).release own.endpoint).setSlot s .closed
  | .connected own c side =>
    let n := n.modifyConnection c (·.shut side .both)
    match side with
    | .caller => (n.release own.endpoint).setSlot s .closed
    | .callee => n.setSlot s .closed
  | .closed => n

/-- Answers a request. -/
def call {α : Type} (q : Request Nat α) (n : Network) : Reply α :=
  match q with
  | .socket => n.socket
  | .bind s a => n.bind s a
  | .listen s backlog => n.listen s backlog
  | .accept s => n.accept s
  | .connect s a => n.connect s a
  | .send s data => n.send s data
  | .recv s room => n.recv s room
  | .shutdown s how => n.shutdown s how
  | .localAddr s => n.localAddr s

/-- The bytes under way in some connections. -/
def bufferedIn : List Connection → Nat
  | [] => 0
  | c :: cs => c.buffered + bufferedIn cs

def buffered (n : Network) : Nat := bufferedIn n.connections

theorem bufferedIn_set_lt {cs : List Connection} {i : Nat} {c d : Connection}
    (hc : cs[i]? = some c) (h : d.buffered < c.buffered) :
    bufferedIn (cs.set i d) < bufferedIn cs := by
  induction cs generalizing i with
  | nil => simp at hc
  | cons a cs ih =>
    cases i with
    | zero => simp at hc; subst hc; simp [bufferedIn]; omega
    | succ i => have := ih (by simpa using hc); simp [bufferedIn]; omega

theorem buffered_lt_of_recv {n n' : Network} {s room : Nat} {bytes : List UInt8}
    (h : n.recv s room = some (.ok bytes, n')) (hb : bytes ≠ []) : n'.buffered < n.buffered := by
  unfold recv at h
  split at h
  · split at h
    · simp at h
    rename_i conn hc
    split at h
    · simp at h
    rename_i hr
    simp at h
    obtain ⟨rfl, rfl⟩ := h
    have := congrArg List.length (Pipe.buffer_eq_of_read hr)
    have := List.length_pos_iff.2 hb
    refine bufferedIn_set_lt hc (Connection.buffered_setIncoming_lt ?_)
    simp at *; omega
  · simp at h

theorem not_interrupted_of_recv {n n' : Network} {s room : Nat} {e : IoError}
    (h : n.recv s room = some (.error e, n')) : e.isInterrupted = false := by
  unfold recv at h
  split at h
  · split at h
    · simp at h; rw [← h.1]; rfl
    split at h <;> simp at h
  · simp at h; rw [← h.1]; rfl

theorem not_interrupted_of_send {n n' : Network} {s : Nat} {data : List UInt8} {e : IoError}
    (h : n.send s data = some (.error e, n')) : e.isInterrupted = false := by
  unfold send at h
  split at h
  · split at h
    · simp at h; rw [← h.1]; rfl
    split at h
    · rename_i hw
      simp at h
      unfold Pipe.write at hw
      split at hw
      · simp at hw; rw [← h.1, ← hw.1]; rfl
      · simp at hw
    · simp at h
  · simp at h; rw [← h.1]; rfl

/-- Sockets within one network; the bytes under way bound its receives. -/
def transport : Transport Network Nat where
  name := "loopback"
  call := call
  release s n := n.drop s
  budget := buffered
  budget_recv h hb := buffered_lt_of_recv h hb
  budget_recv_interrupted h hi := by simp [not_interrupted_of_recv h] at hi
  budget_send_interrupted h hi := by simp [not_interrupted_of_send h] at hi

end Network
end Handoff.Loopback
