import Handoff.Transport

/-!
Virtual sockets as the kernel of a machine answers for them on its own, with no peer anywhere: it
binds, listens and refuses. An accept on a listening socket never returns. A connection attempt
fails, and which error it fails with depends on the route: it is an assumption about the machine.
-/
namespace Handoff.Kernel

/-- What a socket is bound to. A port of the kernel's own choosing has no number here: it is one
that nobody else has or asks for. -/
structure Binding where
  cid : UInt32
  port : Option UInt32
  deriving DecidableEq, Repr

namespace Binding

/-- The binding that an endpoint asks for. -/
def ofEndpoint (e : Endpoint) : Binding := ⟨e.cid, if e.port = anyPort then none else some e.port⟩

/-- The endpoint told of a binding, the wildcard standing for a port of the kernel's choosing. -/
def endpoint (b : Binding) : Endpoint := ⟨b.cid, b.port.getD anyPort⟩

/-- Two bindings to one port clash if their contexts do, and the wildcard clashes with all. -/
def clash (a b : Binding) : Bool :=
  a.port.isSome && a.port == b.port && (a.cid == b.cid || a.cid == anyCid || b.cid == anyCid)

end Binding

inductive Slot where
  | unbound
  | bound (own : Binding)
  | listening (own : Binding)
  | closed
  deriving DecidableEq, Repr

/-- The sockets of a machine in the order they were made, and its own context if it has one. -/
structure Machine where
  cid : Option UInt32
  slots : List Slot
  /-- What an attempt to connect is taken to fail with. -/
  unreachable : IoError.Errno
  deriving DecidableEq, Repr

abbrev Reply (α : Type) := Option (Except IoError α × Machine)

def Slot.binding? : Slot → Option Binding
  | bound b | listening b => some b
  | unbound | closed => none

/-- Where the length of the kernel's own queue ends. -/
def queueLimit : Int := 4096

/-- The greatest length that is asked of the kernel. -/
def greatestBacklog : Nat := 2147483647

/-- The number that a backlog is handed on as. -/
def handedBacklog (backlog : UInt32) : Int := min backlog.toNat greatestBacklog

/-- Whether a number is taken for a queue length. -/
def takesBacklog (n : Int) : Bool := -1 ≤ n && n < queueLimit

/-- The last of the ports that only the privileged may bind to. -/
def lastReservedPort : UInt32 := 1023

namespace Machine

/-- A machine without a context of its own: only the wildcard can be bound to. An attempt to connect
is taken to be reset. -/
def standalone : Machine := ⟨none, [], .connReset⟩

def slot (m : Machine) (s : Nat) : Slot := m.slots[s]?.getD .closed

def setSlot (m : Machine) (s : Nat) (t : Slot) : Machine := { m with slots := m.slots.set s t }

def fail {α : Type} (e : IoError.Errno) (m : Machine) : Reply α := some (.error (.system e), m)

def socket (m : Machine) : Reply Nat :=
  some (.ok m.slots.length, { m with slots := m.slots ++ [.unbound] })

def inUse (m : Machine) (b : Binding) : Bool := (m.slots.filterMap Slot.binding?).any b.clash

/-- Whether sockets of the machine may be bound to a context. -/
def hasCid (m : Machine) (cid : UInt32) : Bool := cid == anyCid || m.cid == some cid

/-- Binds a socket for a process without privileges. A second bind is refused before the address is
looked at, and of the address the context comes first. -/
def bind (m : Machine) (s : Nat) (a : Descriptor) : Reply Unit :=
  match m.slot s with
  | .unbound =>
    let own := Binding.ofEndpoint a.endpoint
    if !m.hasCid a.cid then m.fail .addrNotAvail
    else if a.port ≤ lastReservedPort then m.fail .acces
    else if m.inUse own then m.fail .addrInUse
    else some (.ok (), m.setSlot s (.bound own))
  | _ => m.fail .inval

/-- A number the kernel would not take is refused first. -/
def listen (m : Machine) (s : Nat) (backlog : UInt32) : Reply Unit :=
  if takesBacklog (handedBacklog backlog) then
    match m.slot s with
    | .bound own | .listening own => some (.ok (), m.setSlot s (.listening own))
    | _ => m.fail .inval
  else m.fail .inval

def accept (m : Machine) (s : Nat) : Reply (Nat × Descriptor) :=
  match m.slot s with
  | .listening _ => none
  | _ => m.fail .inval

def connect (m : Machine) (s : Nat) : Reply Unit :=
  match m.slot s with
  | .listening _ => m.fail .inval
  | _ => m.fail m.unreachable

def localAddr (m : Machine) (s : Nat) : Reply Descriptor :=
  let e := ((m.slot s).binding?.getD ⟨anyCid, none⟩).endpoint
  some (.ok (Descriptor.local e.cid e.port), m)

/-- Answers a request. There is never a connection to transfer over or to shut down. -/
def call {α : Type} (q : Request Nat α) (m : Machine) : Reply α :=
  match q with
  | .socket => m.socket
  | .bind s a => m.bind s a
  | .listen s backlog => m.listen s backlog
  | .accept s => m.accept s
  | .connect s _ => m.connect s
  | .send _ _ => m.fail .notConn
  | .recv _ _ => m.fail .notConn
  | .shutdown _ _ => m.fail .notConn
  | .localAddr s => m.localAddr s

def transport : Transport Machine Nat where
  name := "vsock"
  call := call
  release s m := m.setSlot s .closed
  budget _ := 0
  budget_recv h _ := by simp [call, fail] at h
  budget_recv_interrupted h hi := by
    simp [call, fail] at h
    rw [← h.1] at hi; exact absurd hi (by decide)
  budget_send_interrupted h hi := by
    simp [call, fail] at h
    rw [← h.1] at hi; exact absurd hi (by decide)

end Machine
end Handoff.Kernel
