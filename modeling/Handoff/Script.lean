import Handoff.Text.Hex
import Handoff.Transport

/-!
A transport that follows a script. For each kind of call the script lists what its successive calls
do; past the end of a list nothing special happens. Every call is logged, and all sockets share
one script and one log.
-/
namespace Handoff.Script

inductive CallKind where
  | socket | bind | listen | accept | connect | send | recv | shutdown | localAddr
  deriving DecidableEq, Repr

/-- What one call is told to do. Only the calls that have a use for a count or an address look at
it; elsewhere both are plain successes. -/
inductive Entry where
  | plain
  | count (n : Nat)
  | address (a : Descriptor)
  | fail (e : IoError)
  deriving DecidableEq, Repr

/-- A call as it is logged. -/
inductive Call where
  | socket
  | bind (address : Descriptor)
  | listen (backlog : UInt32)
  | accept
  | connect (address : Descriptor)
  | send (data : List UInt8)
  | recv (room : Nat)
  | shutdown (direction : Direction)
  | localAddr
  deriving DecidableEq, Repr

namespace Call

def kind : Call → CallKind
  | socket => .socket
  | bind _ => .bind
  | listen _ => .listen
  | accept => .accept
  | connect _ => .connect
  | send _ => .send
  | recv _ => .recv
  | shutdown _ => .shutdown
  | localAddr => .localAddr

/-- The text of a log line: the call and, behind a space, what it was given if that is not empty. -/
def line : Call → String
  | socket => "socket"
  | bind a => "bind " ++ a.debug
  | listen n => "listen " ++ toString n.toNat
  | accept => "accept"
  | connect a => "connect " ++ a.debug
  | send [] => "send"
  | send data => "send " ++ Text.Hex.encode data
  | recv room => "recv " ++ toString room
  | shutdown .read => "shutdown Read"
  | shutdown .write => "shutdown Write"
  | shutdown .both => "shutdown Both"
  | localAddr => "local_addr"

end Call

/-- The entries still ahead, and the calls made so far, in order. -/
structure Tape where
  ahead : CallKind → List Entry
  log : List Call

def Tape.ofEntries (ahead : CallKind → List Entry) : Tape := ⟨ahead, []⟩

/-- Logs a call and takes its entry. -/
def Tape.take (t : Tape) (c : Call) : Entry × Tape :=
  let rest := fun k => if k = c.kind then (t.ahead k).tail else t.ahead k
  ((t.ahead c.kind).headD .plain, ⟨rest, t.log ++ [c]⟩)

/-- The peer of an accept that is told none. -/
def defaultPeer : Descriptor := Descriptor.peer 3 40000

/-- The near address told by a call that is given none. -/
def defaultOwn : Descriptor := Descriptor.local 3 1234

/-- The byte that scripted data is made of, the letter `x`. -/
def filler : UInt8 := 120

/-- Makes a call and, unless it is told to fail, gives what it answers to its entry. -/
def play {α : Type} (t : Tape) (c : Call) (answer : Entry → α) :
    Option (Except IoError α × Tape) :=
  match t.take c with
  | (.fail e, t) => some (.error e, t)
  | (entry, t) => some (.ok (answer entry), t)

/-- What a send answers to its entry. -/
def sentCount (data : List UInt8) : Entry → Nat
  | .count n => n
  | _ => data.length

/-- What a receive answers to its entry. -/
def received (room : Nat) : Entry → List UInt8
  | .count n => List.replicate (min n room) filler
  | _ => []

/-- The address an entry gives, if it gives one. -/
def addressOr (d : Descriptor) : Entry → Descriptor
  | .address a => a
  | _ => d

def call {α : Type} (q : Request Unit α) (t : Tape) : Option (Except IoError α × Tape) :=
  match q with
  | .socket => play t .socket fun _ => ()
  | .bind _ a => play t (.bind a) fun _ => ()
  | .listen _ n => play t (.listen n) fun _ => ()
  | .accept _ => play t .accept fun e => ((), addressOr defaultPeer e)
  | .connect _ a => play t (.connect a) fun _ => ()
  | .send _ data => play t (.send data) (sentCount data)
  | .recv _ room => play t (.recv room) (received room)
  | .shutdown _ how => play t (.shutdown how) fun _ => ()
  | .localAddr _ => play t .localAddr (addressOr defaultOwn)

/-- The entries of the transfers still ahead. -/
def budget (t : Tape) : Nat := (t.ahead .send).length + (t.ahead .recv).length

theorem budget_take_send_lt {t : Tape} {data : List UInt8} (h : t.ahead .send ≠ []) :
    budget (t.take (.send data)).2 < budget t := by
  have := List.length_pos_iff.2 h
  simp [Tape.take, budget, Call.kind]; omega

theorem budget_take_recv_lt {t : Tape} {room : Nat} (h : t.ahead .recv ≠ []) :
    budget (t.take (.recv room)).2 < budget t := by
  have := List.length_pos_iff.2 h
  simp [Tape.take, budget, Call.kind]; omega

theorem eq_of_play_ok {α : Type} {t t' : Tape} {c : Call} {a : α} (answer : Entry → α)
    (h : play t c answer = some (.ok a, t')) :
    a = answer (t.take c).1 ∧ t' = (t.take c).2 := by
  unfold play at h
  split at h
  · simp at h
  · rename_i he
    simp at h
    simp [he, h]

theorem eq_of_play_error {α : Type} {t t' : Tape} {c : Call} {e : IoError} (answer : Entry → α)
    (h : play t c answer = some (.error e, t')) : t' = (t.take c).2 ∧ t.ahead c.kind ≠ [] := by
  unfold play at h
  split at h
  · rename_i he
    simp at h
    refine ⟨by simp [he, h], fun hn => ?_⟩
    simp [Tape.take, hn] at he
  · simp at h

def transport : Transport Tape Unit where
  name := "scripted"
  call := call
  release _ t := t
  budget := budget
  budget_recv := by
    intro s room w w' bytes h hb
    obtain ⟨ha, rfl⟩ := eq_of_play_ok (received room) h
    refine budget_take_recv_lt fun hn => hb ?_
    simp [ha, Tape.take, Call.kind, hn, received]
  budget_recv_interrupted := by
    intro s room w w' e h _
    obtain ⟨rfl, hn⟩ := eq_of_play_error (received room) h
    exact budget_take_recv_lt hn
  budget_send_interrupted := by
    intro s data w w' e h _
    obtain ⟨rfl, hn⟩ := eq_of_play_error (sentCount data) h
    exact budget_take_send_lt hn

end Handoff.Script
