import Handoff.Handle

/-!
The client's end: connect, send the payload in one transfer, shut the connection down. What a
transfer falls short by is a failure, and the connection is then not shut down. As with the server
the run is one of single steps.
-/
namespace Handoff

namespace Client

def defaultCid : UInt32 := hostCid

/-- The bytes of `hello`. -/
def defaultPayload : List UInt8 := [104, 101, 108, 108, 111]

structure Config where
  remote : Descriptor := Descriptor.remote defaultCid meetingPort
  payload : List UInt8 := defaultPayload
  deriving DecidableEq, Repr

def Config.at (cid port : UInt32) : Config := { remote := Descriptor.remote cid port }

end Client

/-- What a delivered payload amounts to. -/
structure SendReport where
  own : Option Descriptor
  remote : Descriptor
  bytesSent : Nat
  deriving DecidableEq, Repr

variable {σ κ : Type}

/-- Where a client's run stands: what it does next. -/
inductive Delivery (κ : Type) where
  | opening
  | connecting (h : Handle κ)
  | locating (h : Handle κ)
  | sending (h : Handle κ) (own : Option Descriptor)
  | closing (h : Handle κ) (own : Option Descriptor) (sent : Nat)
  /-- Sockets to give up, then the outcome. -/
  | leaving (sockets : List κ) (outcome : Except Failure SendReport)

namespace Delivery

/-- The result of a run that is over. -/
def outcome? : Delivery κ → Option (Except Failure SendReport)
  | leaving [] outcome => some outcome
  | _ => none

/-- What follows a transfer of `sent` bytes. -/
def afterSend (c : Client.Config) (h : Handle κ) (own : Option Descriptor) (sent : Nat) :
    Delivery κ :=
  if sent = 0 then leaving [h.socket] (.error (.nothingSent c.remote))
  else if sent < c.payload.length then
    leaving [h.socket] (.error (.shortSend c.remote sent c.payload.length))
  else closing h own sent

/-- One step, or `none` if it cannot be taken yet or the run is over. -/
def step (T : Transport σ κ) (c : Client.Config) (p : Delivery κ) (w : σ) :
    Option (Delivery κ × σ) :=
  match p with
  | opening =>
    match Handle.create T w with
    | none => none
    | some (.error f, w) => some (leaving [] (.error f), w)
    | some (.ok h, w) => some (connecting h, w)
  | connecting h =>
    match h.connect T c.remote w with
    | none => none
    | some (.error f, h, w) => some (leaving [h.socket] (.error f), w)
    | some (.ok (), h, w) => some (locating h, w)
  | locating h =>
    match h.localAddr T w with
    | none => none
    | some (own, w) => some (sending h own, w)
  | sending h own =>
    match h.send T c.payload w with
    | none => none
    | some (.error f, w) => some (leaving [h.socket] (.error f), w)
    | some (.ok sent, w) => some (afterSend c h own sent, w)
  | closing h own sent =>
    match h.shutdown T w with
    | none => none
    | some (.error f, h, w) => some (leaving [h.socket] (.error f), w)
    | some (.ok (), h, w) => some (leaving [h.socket] (.ok ⟨own, c.remote, sent⟩), w)
  | leaving (s :: rest) outcome => some (leaving rest outcome, T.release s w)
  | leaving [] _ => none

/-- How far a run is from its end. -/
def rank : Delivery κ → Nat
  | opening => 6
  | connecting _ => 5
  | locating _ => 4
  | sending .. => 3
  | closing .. => 2
  | leaving sockets _ => sockets.length

theorem rank_lt_of_step {T : Transport σ κ} {c : Client.Config} {p p' : Delivery κ} {w w' : σ}
    (h : p.step T c w = some (p', w')) : p'.rank < p.rank := by
  unfold step at h
  split at h
  · split at h <;> simp at h <;> obtain ⟨rfl, rfl⟩ := h <;> simp [rank]
  · split at h <;> simp at h <;> obtain ⟨rfl, rfl⟩ := h <;> simp [rank]
  · split at h
    · simp at h
    · simp at h; obtain ⟨rfl, rfl⟩ := h; simp [rank]
  · split at h
    · simp at h
    · simp at h; obtain ⟨rfl, rfl⟩ := h; simp [rank]
    · simp at h; obtain ⟨rfl, rfl⟩ := h
      unfold afterSend
      repeat' split
      all_goals simp [rank]
  · split at h <;> simp at h <;> obtain ⟨rfl, rfl⟩ := h <;> simp [rank]
  · simp at h; obtain ⟨rfl, rfl⟩ := h; simp [rank]
  · simp at h

/-- Takes steps until none can be taken. -/
def advance (T : Transport σ κ) (c : Client.Config) (p : Delivery κ) (w : σ) : Delivery κ × σ :=
  match h : p.step T c w with
  | none => (p, w)
  | some (p', w') =>
    have := rank_lt_of_step h
    advance T c p' w'
termination_by p.rank

theorem advance_eq (T : Transport σ κ) (c : Client.Config) (p : Delivery κ) (w : σ) :
    p.advance T c w =
      match p.step T c w with
      | none => (p, w)
      | some (p, w) => p.advance T c w := by
  rw [advance]
  split <;> simp_all

end Delivery

/-- The whole run of a client; `none` if it cannot be finished yet. -/
def Client.run (T : Transport σ κ) (c : Client.Config) (w : σ) :
    Option (Except Failure SendReport × σ) :=
  let (p, w) := Delivery.opening.advance T c w
  p.outcome?.map fun outcome => (outcome, w)

end Handoff
