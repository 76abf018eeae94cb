import Handoff.Handle

/-!
The server's end: bind and listen, accept one peer, receive until it closes, shut the connection
down. Listening is done at once; what follows is a run of single steps, `Drain.step`, so that it can
wait and be gone on with, or be mixed with the steps of others.

Sizes and counts are machine words, and a count that outgrows its word wraps. The receive buffer is
made once a peer has been accepted. A size that no buffer can have is a panic there: the run is over
without a result, and its sockets are given up on the way out. That a machine may be out of memory
is not looked at.
-/
namespace Handoff

/-- How a call is left that may panic. -/
inductive Exit (α : Type) where
  | returned (a : α)
  | panicked
  deriving DecidableEq, Repr

def Exit.map {α β : Type} (f : α → β) : Exit α → Exit β
  | returned a => returned (f a)
  | panicked => panicked

/-- The greatest size that a buffer can have. -/
def largestBuffer : UInt64 := 0x7fffffffffffffff

namespace Server

def defaultCid : UInt32 := 33

def defaultBacklog : UInt32 := 1

def defaultReceiveSize : UInt64 := 1024

structure Config where
  bind : Descriptor := Descriptor.bind defaultCid meetingPort
  backlog : UInt32 := defaultBacklog
  receiveSize : UInt64 := defaultReceiveSize
  deriving DecidableEq, Repr

def Config.at (cid port : UInt32) : Config := { bind := Descriptor.bind cid port }

/-- The size of the receive buffer. -/
def Config.room (c : Config) : UInt64 := max 1 c.receiveSize

theorem Config.room_pos (c : Config) : 0 < c.room.toNat := by
  have h : (1 : UInt64) ≤ c.room := by
    simp only [room, Max.max]
    split
    · assumption
    · exact UInt64.le_refl 1
  exact UInt64.le_iff_toNat_le.mp h

end Server

/-- What a drained connection amounts to. -/
structure DrainReport where
  own : Descriptor
  peer : Descriptor
  bytesReceived : UInt64
  reads : UInt64
  deriving DecidableEq, Repr

/-- A server that is ready for its one peer. -/
structure Listener (κ : Type) where
  handle : Handle κ
  own : Descriptor
  room : UInt64
  deriving DecidableEq, Repr

variable {σ κ : Type}

/-- Creates, binds and listens. A socket that gets no further is given up. -/
def Server.listen (T : Transport σ κ) (c : Server.Config) (w : σ) :
    Option (Except Failure (Listener κ) × σ) :=
  match Handle.create T w with
  | none => none
  | some (.error f, w) => some (.error f, w)
  | some (.ok h, w) =>
    match h.bind T c.bind w with
    | none => none
    | some (.error f, h, w) => some (.error f, T.release h.socket w)
    | some (.ok (), h, w) =>
      match h.listen T c.backlog w with
      | none => none
      | some (.error f, h, w) => some (.error f, T.release h.socket w)
      | some (.ok (), h, w) =>
        match h.localAddr T w with
        | none => none
        | some (own, w) => some (.ok ⟨h, own.getD c.bind, c.room⟩, w)

/-- Where a listener's run stands: what it does next. -/
inductive Drain (κ : Type) where
  | accepting (l : Listener κ)
  | receiving (l : Listener κ) (conn : Handle κ) (peer : Descriptor) (bytes reads : UInt64)
  | closing (l : Listener κ) (conn : Handle κ) (peer : Descriptor) (bytes reads : UInt64)
  /-- Sockets to give up, then the exit. -/
  | leaving (sockets : List κ) (exit : Exit (Except Failure DrainReport))

namespace Drain

/-- How a run that is over was left. -/
def exit? : Drain κ → Option (Exit (Except Failure DrainReport))
  | leaving [] exit => some exit
  | _ => none

/-- Where a run stands that has accepted a peer: it has its buffer, or there can be none. -/
def met (l : Listener κ) (conn : Handle κ) (peer : Descriptor) : Drain κ :=
  if l.room ≤ largestBuffer then receiving l conn peer 0 0
  else leaving [conn.socket, l.handle.socket] .panicked

/-- One step, or `none` if it cannot be taken yet or the run is over. The connection is given up
before the listener, also in a panic. -/
def step (T : Transport σ κ) (p : Drain κ) (w : σ) : Option (Drain κ × σ) :=
  match p with
  | accepting l =>
    match l.handle.accept T w with
    | none => none
    | some (.error f, w) => some (leaving [l.handle.socket] (.returned (.error f)), w)
    | some (.ok (conn, peer), w) => some (met l conn peer, w)
  | receiving l conn peer bytes reads =>
    match conn.recv T l.room.toNat w with
    | none => none
    | some (.error f, conn, w) =>
      some (leaving [conn.socket, l.handle.socket] (.returned (.error f)), w)
    | some (.ok [], conn, w) => some (closing l conn peer bytes reads, w)
    | some (.ok (b :: bs), conn, w) =>
      some (receiving l conn peer (bytes + .ofNat (b :: bs).length) (reads + 1), w)
  | closing l conn peer bytes reads =>
    match conn.shutdown T w with
    | none => none
    | some (.error f, conn, w) =>
      some (leaving [conn.socket, l.handle.socket] (.returned (.error f)), w)
    | some (.ok (), conn, w) =>
      some (leaving [conn.socket, l.handle.socket]
        (.returned (.ok ⟨l.own, peer, bytes, reads⟩)), w)
  | leaving (s :: rest) exit => some (leaving rest exit, T.release s w)
  | leaving [] _ => none

/-- How far a run is from its end, receives apart. -/
def rank : Drain κ → Nat
  | accepting _ => 5
  | receiving .. => 4
  | closing .. => 3
  | leaving sockets _ => sockets.length

theorem rank_met_lt (l : Listener κ) (conn : Handle κ) (peer : Descriptor) :
    (met l conn peer).rank < (accepting l).rank := by
  unfold met
  split <;> simp [rank]

theorem rank_lt_or_budget_lt_of_step {T : Transport σ κ} {p p' : Drain κ} {w w' : σ}
    (h : p.step T w = some (p', w')) :
    p'.rank < p.rank ∨ p'.rank = p.rank ∧ T.budget w' < T.budget w := by
  unfold step at h
  split at h
  · split at h
    · simp at h
    · simp at h; obtain ⟨rfl, rfl⟩ := h; simp [rank]
    · simp at h; obtain ⟨rfl, rfl⟩ := h; exact .inl (rank_met_lt _ _ _)
  · split at h
    · simp at h
    · simp at h; obtain ⟨rfl, rfl⟩ := h; simp [rank]
    · simp at h; obtain ⟨rfl, rfl⟩ := h; simp [rank]
    · rename_i hr
      simp at h; obtain ⟨rfl, rfl⟩ := h
      exact .inr ⟨rfl, Handle.budget_lt_of_recv hr (by simp)⟩
  · split at h <;> simp at h <;> obtain ⟨rfl, rfl⟩ := h <;> simp [rank]
  · simp at h; obtain ⟨rfl, rfl⟩ := h; simp [rank]
  · simp at h

/-- Takes steps until none can be taken. -/
def advance (T : Transport σ κ) (p : Drain κ) (w : σ) : Drain κ × σ :=
  match h : p.step T w with
  | none => (p, w)
  | some (p', w') =>
    have := rank_lt_or_budget_lt_of_step h
    advance T p' w'
termination_by (p.rank, T.budget w)
decreasing_by
  rcases this with hr | ⟨hr, hb⟩
  · exact Prod.Lex.left _ _ hr
  · rw [hr]; exact Prod.Lex.right _ hb

theorem advance_eq (T : Transport σ κ) (p : Drain κ) (w : σ) :
    p.advance T w =
      match p.step T w with
      | none => (p, w)
      | some (p, w) => p.advance T w := by
  rw [advance]
  split <;> simp_all

end Drain

/-- Accepts one peer and drains it; `none` if that cannot be finished yet. -/
def Listener.acceptAndDrain (T : Transport σ κ) (l : Listener κ) (w : σ) :
    Option (Exit (Except Failure DrainReport) × σ) :=
  let (p, w) := (Drain.accepting l).advance T w
  p.exit?.map fun exit => (exit, w)

/-- The whole run of a server. -/
def Server.run (T : Transport σ κ) (c : Server.Config) (w : σ) :
    Option (Exit (Except Failure DrainReport) × σ) :=
  match Server.listen T c w with
  | none => none
  | some (.error f, w) => some (.returned (.error f), w)
  | some (.ok l, w) => l.acceptAndDrain T w

end Handoff
