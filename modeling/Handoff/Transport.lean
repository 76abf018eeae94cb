import Handoff.Address.Descriptor
import Handoff.IoError

/-!
The seam under handles and endpoints. A transport answers requests on a world `σ`, whose sockets
are named by `κ`; a request that cannot be answered yet gives `none` and leaves the world alone.

Every transport has a budget that an interrupted transfer or a receive with bytes uses up some of.
It is why retries and drain loops end.
-/
namespace Handoff

/-- The directions of a connection that a shutdown names. -/
inductive Direction where
  | read | write | both
  deriving DecidableEq, Repr

/-- What is asked of the socket layer, by the type of its answer. -/
inductive Request (κ : Type) : Type → Type where
  | socket : Request κ κ
  | bind (s : κ) (address : Descriptor) : Request κ Unit
  | listen (s : κ) (backlog : UInt32) : Request κ Unit
  | accept (s : κ) : Request κ (κ × Descriptor)
  | connect (s : κ) (address : Descriptor) : Request κ Unit
  | send (s : κ) (data : List UInt8) : Request κ Nat
  | recv (s : κ) (room : Nat) : Request κ (List UInt8)
  | shutdown (s : κ) (direction : Direction) : Request κ Unit
  | localAddr (s : κ) : Request κ Descriptor

structure Transport (σ κ : Type) where
  name : String
  call {α : Type} (q : Request κ α) (w : σ) : Option (Except IoError α × σ)
  /-- Gives a socket up, with all it holds. -/
  release (s : κ) (w : σ) : σ
  budget (w : σ) : Nat
  budget_recv {s : κ} {room : Nat} {w w' : σ} {bytes : List UInt8} :
    call (.recv s room) w = some (.ok bytes, w') → bytes ≠ [] → budget w' < budget w
  budget_recv_interrupted {s : κ} {room : Nat} {w w' : σ} {e : IoError} :
    call (.recv s room) w = some (.error e, w') → e.isInterrupted → budget w' < budget w
  budget_send_interrupted {s : κ} {data : List UInt8} {w w' : σ} {e : IoError} :
    call (.send s data) w = some (.error e, w') → e.isInterrupted → budget w' < budget w

namespace Transport

variable {σ κ : Type}

/-- A send that is repeated for as long as it is interrupted. -/
def sendThrough (T : Transport σ κ) (s : κ) (data : List UInt8) (w : σ) :
    Option (Except IoError Nat × σ) :=
  match h : T.call (.send s data) w with
  | none => none
  | some (.ok n, w) => some (.ok n, w)
  | some (.error e, w) =>
    if hi : e.isInterrupted then
      have := T.budget_send_interrupted h hi
      T.sendThrough s data w
    else some (.error e, w)
termination_by T.budget w

/-- A receive that is repeated for as long as it is interrupted. -/
def recvThrough (T : Transport σ κ) (s : κ) (room : Nat) (w : σ) :
    Option (Except IoError (List UInt8) × σ) :=
  match h : T.call (.recv s room) w with
  | none => none
  | some (.ok bytes, w) => some (.ok bytes, w)
  | some (.error e, w) =>
    if hi : e.isInterrupted then
      have := T.budget_recv_interrupted h hi
      T.recvThrough s room w
    else some (.error e, w)
termination_by T.budget w

theorem sendThrough_eq (T : Transport σ κ) (s : κ) (data : List UInt8) (w : σ) :
    T.sendThrough s data w =
      match T.call (.send s data) w with
      | none => none
      | some (.ok n, w) => some (.ok n, w)
      | some (.error e, w) =>
        if e.isInterrupted then T.sendThrough s data w else some (.error e, w) := by
  rw [sendThrough]
  split <;> simp_all

theorem recvThrough_eq (T : Transport σ κ) (s : κ) (room : Nat) (w : σ) :
    T.recvThrough s room w =
      match T.call (.recv s room) w with
      | none => none
      | some (.ok bytes, w) => some (.ok bytes, w)
      | some (.error e, w) =>
        if e.isInterrupted then T.recvThrough s room w else some (.error e, w) := by
  rw [recvThrough]
  split <;> simp_all

theorem budget_lt_of_recvThrough {T : Transport σ κ} {s : κ} {room : Nat} {w w' : σ}
    {bytes : List UInt8} (h : T.recvThrough s room w = some (.ok bytes, w'))
    (hb : bytes ≠ []) : T.budget w' < T.budget w := by
  fun_induction T.recvThrough s room w with
  | case1 => simp at h
  | case2 w b w₁ hc => simp at h; obtain ⟨rfl, rfl⟩ := h; exact T.budget_recv hc hb
  | case3 w e w₁ _ hc hi ih => have := ih h; omega
  | case4 => simp at h

end Transport
end Handoff
