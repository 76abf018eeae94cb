import Handoff.Failure
import Handoff.Transport

/-!
A socket with the stage it is in and the addresses it was given. Each operation looks at the stage
first: out of order it fails before the transport is asked. A transfer that is interrupted is
repeated.

The operations give back the handle as it is afterwards. Only a receive changes it without
succeeding: it takes an accepted handle to draining before it asks.
-/
namespace Handoff

structure Handle (κ : Type) where
  socket : κ
  stage : Stage
  /-- The address bound to; the listener's, for an accepted connection. -/
  own : Option Descriptor
  peer : Option Descriptor
  deriving DecidableEq, Repr

namespace Handle

variable {σ κ : Type}

/-- The address that errors about the near end carry. -/
def ownOrAny (h : Handle κ) : Descriptor := h.own.getD (Descriptor.local anyCid anyPort)

/-- The address that errors about the far end carry. -/
def peerOrAny (h : Handle κ) : Descriptor := h.peer.getD (Descriptor.peer anyCid anyPort)

/-- The failure of an operation that the stage does not admit. -/
def illegal (h : Handle κ) (op : Operation) : Failure := .illegalState op.name h.stage

/-- The diagnostic text of a handle. -/
def debug (h : Handle κ) : String :=
  let optional : Option Descriptor → String
    | none => "None"
    | some d => "Some(" ++ d.debug ++ ")"
  "SocketHandle \x7b state: " ++ h.stage.label ++ ", local: " ++ optional h.own ++ ", peer: "
    ++ optional h.peer ++ " \x7d"

def create (T : Transport σ κ) (w : σ) : Option (Except Failure (Handle κ) × σ) :=
  match T.call .socket w with
  | none => none
  | some (.error e, w) => some (.error (.socket e), w)
  | some (.ok s, w) => some (.ok ⟨s, .created, none, none⟩, w)

/-- The near address as the transport tells it, or else the one bound to. -/
def localAddr (T : Transport σ κ) (h : Handle κ) (w : σ) : Option (Option Descriptor × σ) :=
  match T.call (.localAddr h.socket) w with
  | none => none
  | some (.error _, w) => some (h.own, w)
  | some (.ok a, w) => some (some a, w)

def bind (T : Transport σ κ) (h : Handle κ) (a : Descriptor) (w : σ) :
    Option (Except Failure Unit × Handle κ × σ) :=
  if Operation.bind.admittedIn h.stage then
    match T.call (.bind h.socket a) w with
    | none => none
    | some (.error e, w) => some (.error (.bind a e), h, w)
    | some (.ok (), w) => some (.ok (), { h with stage := .bound, own := some a }, w)
  else some (.error (h.illegal .bind), h, w)

def listen (T : Transport σ κ) (h : Handle κ) (backlog : UInt32) (w : σ) :
    Option (Except Failure Unit × Handle κ × σ) :=
  if Operation.listen.admittedIn h.stage then
    match T.call (.listen h.socket backlog) w with
    | none => none
    | some (.error e, w) => some (.error (.listen h.ownOrAny backlog e), h, w)
    | some (.ok (), w) => some (.ok (), { h with stage := .listening }, w)
  else some (.error (h.illegal .listen), h, w)

/-- A listening handle stays one; the connection is a handle of its own. -/
def accept (T : Transport σ κ) (h : Handle κ) (w : σ) :
    Option (Except Failure (Handle κ × Descriptor) × σ) :=
  if Operation.accept.admittedIn h.stage then
    match T.call (.accept h.socket) w with
    | none => none
    | some (.error e, w) => some (.error (.accept h.ownOrAny e), w)
    | some (.ok (s, peer), w) => some (.ok (⟨s, .accepted, h.own, some peer⟩, peer), w)
  else some (.error (h.illegal .accept), w)

def connect (T : Transport σ κ) (h : Handle κ) (a : Descriptor) (w : σ) :
    Option (Except Failure Unit × Handle κ × σ) :=
  if Operation.connect.admittedIn h.stage then
    match T.call (.connect h.socket a) w with
    | none => none
    | some (.error e, w) => some (.error (.connect a e), h, w)
    | some (.ok (), w) => some (.ok (), { h with stage := .connected, peer := some a }, w)
  else some (.error (h.illegal .connect), h, w)

def send (T : Transport σ κ) (h : Handle κ) (data : List UInt8) (w : σ) :
    Option (Except Failure Nat × σ) :=
  if Operation.send.admittedIn h.stage then
    match T.sendThrough h.socket data w with
    | none => none
    | some (.error e, w) => some (.error (.send h.peerOrAny e), w)
    | some (.ok n, w) => some (.ok n, w)
  else some (.error (h.illegal .send), w)

/-- An accepted handle drains from its first receive on. -/
def draining (h : Handle κ) : Handle κ :=
  if h.stage = .accepted then { h with stage := .draining } else h

def recv (T : Transport σ κ) (h : Handle κ) (room : Nat) (w : σ) :
    Option (Except Failure (List UInt8) × Handle κ × σ) :=
  if Operation.recv.admittedIn h.stage then
    match T.recvThrough h.socket room w with
    | none => none
    | some (.error e, w) => some (.error (.recv h.peerOrAny e), h.draining, w)
    | some (.ok bytes, w) => some (.ok bytes, h.draining, w)
  else some (.error (h.illegal .recv), h, w)

/-- Ends both directions. -/
def shutdown (T : Transport σ κ) (h : Handle κ) (w : σ) :
    Option (Except Failure Unit × Handle κ × σ) :=
  if Operation.shutdown.admittedIn h.stage then
    match T.call (.shutdown h.socket .both) w with
    | none => none
    | some (.error e, w) => some (.error (.shutdown h.peerOrAny e), h, w)
    | some (.ok (), w) => some (.ok (), { h with stage := .shutdown }, w)
  else some (.error (h.illegal .shutdown), h, w)

theorem budget_lt_of_recv {T : Transport σ κ} {h h' : Handle κ} {room : Nat} {w w' : σ}
    {bytes : List UInt8} (hr : h.recv T room w = some (.ok bytes, h', w')) (hb : bytes ≠ []) :
    T.budget w' < T.budget w := by
  unfold recv at hr
  split at hr
  · split at hr
    · simp at hr
    · simp at hr
    · rename_i ht
      simp at hr
      obtain ⟨rfl, -, rfl⟩ := hr
      exact Transport.budget_lt_of_recvThrough ht hb
  · simp at hr

end Handle
end Handoff
