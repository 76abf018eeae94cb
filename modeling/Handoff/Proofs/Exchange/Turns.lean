import Handoff.Pair
import Handoff.Proofs.Loopback.Change

/-!
The ends of an exchange over a network. Each end that keeps its handles in order takes turns: one
step of an end is one step of the network, on a socket of that end.
-/
namespace Handoff

open Loopback (Network)
open Loopback.Network (Event)

namespace Loopback.Network

/-- No send is ever interrupted. -/
theorem sendThrough_eq (n : Network) (s : Nat) (data : List UInt8) :
    transport.sendThrough s data n = n.send s data := by
  have hc : transport.call (.send s data) n = n.send s data := rfl
  rw [Transport.sendThrough_eq, hc]
  cases h : n.send s data with
  | none => rfl
  | some x =>
    obtain ⟨r, m⟩ := x
    cases r with
    | ok k => rfl
    | error e => simp [not_interrupted_of_send h]

/-- No receive is ever interrupted. -/
theorem recvThrough_eq (n : Network) (s room : Nat) :
    transport.recvThrough s room n = n.recv s room := by
  have hc : transport.call (.recv s room) n = n.recv s room := rfl
  rw [Transport.recvThrough_eq, hc]
  cases h : n.recv s room with
  | none => rfl
  | some x =>
    obtain ⟨r, m⟩ := x
    cases r with
    | ok bytes => rfl
    | error e => simp [not_interrupted_of_recv h]

end Loopback.Network

namespace Delivery

variable {c : Client.Config} {p p' : Delivery Nat} {n n' : Network}

/-- The handle of a client before it connects. -/
def caller (s : Nat) : Handle Nat := ⟨s, .created, none, none⟩

/-- The handle of a client that has connected. -/
def joined (c : Client.Config) (s : Nat) : Handle Nat := ⟨s, .connected, none, some c.remote⟩

/-- The sockets that a client has. -/
def sockets : Delivery Nat → List Nat
  | opening => []
  | connecting h | locating h | sending h _ | closing h _ _ => [h.socket]
  | leaving ss _ => ss

/-- A client whose handle is in the stage that its next step needs. -/
def Staged (c : Client.Config) : Delivery Nat → Prop
  | opening | leaving .. => True
  | connecting h => h = caller h.socket
  | locating h | sending h _ | closing h _ _ => h = joined c h.socket

/-- How a client goes on, by what its request was answered. -/
inductive Turn (c : Client.Config) : Delivery Nat → Event → Delivery Nat → Prop where
  | opened (s : Nat) : Turn c opening (.answered .socket (.ok s)) (connecting (caller s))
  | connected (s : Nat) :
      Turn c (connecting (caller s)) (.answered (.connect s c.remote) (.ok ()))
        (locating (joined c s))
  | refused (s : Nat) (e : IoError) :
      Turn c (connecting (caller s)) (.answered (.connect s c.remote) (.error e))
        (leaving [s] (.error (.connect c.remote e)))
  | located (s : Nat) (own : Descriptor) :
      Turn c (locating (joined c s)) (.answered (.localAddr s) (.ok own))
        (sending (joined c s) (some own))
  | unlocated (s : Nat) (e : IoError) :
      Turn c (locating (joined c s)) (.answered (.localAddr s) (.error e))
        (sending (joined c s) none)
  | sent (s : Nat) (own : Option Descriptor) (k : Nat) :
      Turn c (sending (joined c s) own) (.answered (.send s c.payload) (.ok k))
        (afterSend c (joined c s) own k)
  | unsent (s : Nat) (own : Option Descriptor) (e : IoError) :
      Turn c (sending (joined c s) own) (.answered (.send s c.payload) (.error e))
        (leaving [s] (.error (.send c.remote e)))
  | shut (s : Nat) (own : Option Descriptor) (k : Nat) :
      Turn c (closing (joined c s) own k) (.answered (.shutdown s .both) (.ok ()))
        (leaving [s] (.ok ⟨own, c.remote, k⟩))
  | unshut (s : Nat) (own : Option Descriptor) (k : Nat) (e : IoError) :
      Turn c (closing (joined c s) own k) (.answered (.shutdown s .both) (.error e))
        (leaving [s] (.error (.shutdown c.remote e)))
  | left (s : Nat) (rest : List Nat) (o : Except Failure SendReport) :
      Turn c (leaving (s :: rest) o) (.dropped s) (leaving rest o)

/-- A client is done when it has given up all it had. -/
theorem of_outcome? {o : Except Failure SendReport} (h : p.outcome? = some o) :
    p = leaving [] o := by
  cases p with
  | leaving ss o' =>
    cases ss with
    | nil => rw [Option.some.inj h]
    | cons s rest => simp [outcome?] at h
  | _ => simp [outcome?] at h

theorem step_opening :
    opening.step Network.transport c n =
      some (connecting (caller n.slots.length), { n with slots := n.slots ++ [.fresh] }) := rfl

theorem step_connecting (s : Nat) :
    (connecting (caller s)).step Network.transport c n =
      match n.connect s c.remote with
      | none => none
      | some (.error e, m) => some (leaving [s] (.error (.connect c.remote e)), m)
      | some (.ok (), m) => some (locating (joined c s), m) := by
  have hc : Network.transport.call (.connect s c.remote) n = n.connect s c.remote := rfl
  simp only [step, Handle.connect, caller, Operation.admittedIn, beq_self_eq_true, if_true, hc]
  cases n.connect s c.remote with
  | none => rfl
  | some x =>
    obtain ⟨r, m⟩ := x
    cases r <;> rfl

theorem step_locating (s : Nat) :
    (locating (joined c s)).step Network.transport c n =
      match n.localAddr s with
      | none => none
      | some (.error _, m) => some (sending (joined c s) none, m)
      | some (.ok own, m) => some (sending (joined c s) (some own), m) := by
  have hc : Network.transport.call (.localAddr s) n = n.localAddr s := rfl
  simp only [step, Handle.localAddr, joined, hc]
  cases n.localAddr s with
  | none => rfl
  | some x =>
    obtain ⟨r, m⟩ := x
    cases r <;> rfl

theorem step_sending (s : Nat) (own : Option Descriptor) :
    (sending (joined c s) own).step Network.transport c n =
      match n.send s c.payload with
      | none => none
      | some (.error e, m) => some (leaving [s] (.error (.send c.remote e)), m)
      | some (.ok k, m) => some (afterSend c (joined c s) own k, m) := by
  simp only [step, Handle.send, joined, Operation.admittedIn, beq_self_eq_true, if_true,
    Network.sendThrough_eq]
  cases n.send s c.payload with
  | none => rfl
  | some x =>
    obtain ⟨r, m⟩ := x
    cases r <;> rfl

theorem step_closing (s : Nat) (own : Option Descriptor) (k : Nat) :
    (closing (joined c s) own k).step Network.transport c n =
      match n.shutdown s .both with
      | none => none
      | some (.error e, m) => some (leaving [s] (.error (.shutdown c.remote e)), m)
      | some (.ok (), m) => some (leaving [s] (.ok ⟨own, c.remote, k⟩), m) := by
  have hc : Network.transport.call (.shutdown s .both) n = n.shutdown s .both := rfl
  simp only [step, Handle.shutdown, joined, Operation.admittedIn, Stage.isConnection, if_true, hc]
  cases n.shutdown s .both with
  | none => rfl
  | some x =>
    obtain ⟨r, m⟩ := x
    cases r <;> rfl

theorem step_leaving (s : Nat) (rest : List Nat) (o : Except Failure SendReport) :
    (leaving (s :: rest) o).step Network.transport c n = some (leaving rest o, n.drop s) := rfl

/-- A step of a client is a turn that it takes and a step of the network. -/
theorem turn_of_step (hp : p.Staged c) (h : p.step Network.transport c n = some (p', n')) :
    ∃ e, Turn c p e p' ∧ n.Step e n' := by
  cases p with
  | opening =>
    rw [step_opening, Option.some.injEq, Prod.mk.injEq] at h
    obtain ⟨rfl, rfl⟩ := h
    exact ⟨_, .opened _, .call (q := .socket) rfl⟩
  | connecting k =>
    have hk : k = caller k.socket := hp
    rw [hk, step_connecting] at h
    rw [hk]
    split at h <;> simp only [Option.some.injEq, Prod.mk.injEq, reduceCtorEq] at h
    · obtain ⟨rfl, rfl⟩ := h
      exact ⟨_, .refused _ _, .call (q := .connect _ _) ‹_›⟩
    · obtain ⟨rfl, rfl⟩ := h
      exact ⟨_, .connected _, .call (q := .connect _ _) ‹_›⟩
  | locating k =>
    have hk : k = joined c k.socket := hp
    rw [hk, step_locating] at h
    rw [hk]
    split at h <;> simp only [Option.some.injEq, Prod.mk.injEq, reduceCtorEq] at h
    · obtain ⟨rfl, rfl⟩ := h
      exact ⟨_, .unlocated _ _, .call (q := .localAddr _) ‹_›⟩
    · obtain ⟨rfl, rfl⟩ := h
      exact ⟨_, .located _ _, .call (q := .localAddr _) ‹_›⟩
  | sending k own =>
    have hk : k = joined c k.socket := hp
    rw [hk, step_sending] at h
    rw [hk]
    split at h <;> simp only [Option.some.injEq, Prod.mk.injEq, reduceCtorEq] at h
    · obtain ⟨rfl, rfl⟩ := h
      exact ⟨_, .unsent _ _ _, .call (q := .send _ _) ‹_›⟩
    · obtain ⟨rfl, rfl⟩ := h
      exact ⟨_, .sent _ _ _, .call (q := .send _ _) ‹_›⟩
  | closing k own sent =>
    have hk : k = joined c k.socket := hp
    rw [hk, step_closing] at h
    rw [hk]
    split at h <;> simp only [Option.some.injEq, Prod.mk.injEq, reduceCtorEq] at h
    · obtain ⟨rfl, rfl⟩ := h
      exact ⟨_, .unshut _ _ _ _, .call (q := .shutdown _ _) ‹_›⟩
    · obtain ⟨rfl, rfl⟩ := h
      exact ⟨_, .shut _ _ _, .call (q := .shutdown _ _) ‹_›⟩
  | leaving ss o =>
    cases ss with
    | nil => simp [step] at h
    | cons s rest =>
      rw [step_leaving, Option.some.injEq, Prod.mk.injEq] at h
      obtain ⟨rfl, rfl⟩ := h
      exact ⟨_, .left _ _ _, .drop s⟩

end Delivery

namespace Drain

theorem ofNat_add_one (n : Nat) : UInt64.ofNat n + 1 = .ofNat (n + 1) :=
  (UInt64.ofNat_add n 1).symm

variable {p p' : Drain Nat} {n n' : Network} {l : Listener Nat} {conn : Handle Nat}

/-- The sockets that a server has. -/
def sockets : Drain Nat → List Nat
  | accepting l => [l.handle.socket]
  | receiving l conn .. | closing l conn .. => [conn.socket, l.handle.socket]
  | leaving ss _ => ss

/-- The handle of an accepted connection. -/
def accepted (l : Listener Nat) (s : Nat) (peer : Descriptor) : Handle Nat :=
  ⟨s, .accepted, l.handle.own, some peer⟩

/-- A server whose handles are in the stages that its next step needs. -/
def Staged : Drain Nat → Prop
  | accepting l => l.handle.stage = .listening
  | receiving _ conn .. | closing _ conn .. => conn.stage.isConnection = true
  | leaving .. => True

/-- How a server goes on, by what its request was answered. -/
inductive Turn : Drain Nat → Event → Drain Nat → Prop where
  | accepted (l : Listener Nat) (s : Nat) (peer : Descriptor) :
      Turn (accepting l) (.answered (.accept l.handle.socket) (.ok (s, peer)))
        (met l (Drain.accepted l s peer) peer)
  | aborted (l : Listener Nat) (e : IoError) :
      Turn (accepting l) (.answered (.accept l.handle.socket) (.error e))
        (leaving [l.handle.socket] (.returned (.error (.accept l.handle.ownOrAny e))))
  | received (l : Listener Nat) (conn : Handle Nat) (peer : Descriptor) (total reads : UInt64)
      (bytes : List UInt8) (hb : bytes ≠ []) :
      Turn (receiving l conn peer total reads)
        (.answered (.recv conn.socket l.room.toNat) (.ok bytes))
        (receiving l conn.draining peer (total + .ofNat bytes.length) (reads + 1))
  | drained (l : Listener Nat) (conn : Handle Nat) (peer : Descriptor) (total reads : UInt64) :
      Turn (receiving l conn peer total reads)
        (.answered (.recv conn.socket l.room.toNat) (.ok []))
        (closing l conn.draining peer total reads)
  | cut (l : Listener Nat) (conn : Handle Nat) (peer : Descriptor) (total reads : UInt64)
      (e : IoError) :
      Turn (receiving l conn peer total reads)
        (.answered (.recv conn.socket l.room.toNat) (.error e))
        (leaving [conn.socket, l.handle.socket] (.returned (.error (.recv conn.peerOrAny e))))
  | shut (l : Listener Nat) (conn : Handle Nat) (peer : Descriptor) (total reads : UInt64) :
      Turn (closing l conn peer total reads) (.answered (.shutdown conn.socket .both) (.ok ()))
        (leaving [conn.socket, l.handle.socket] (.returned (.ok ⟨l.own, peer, total, reads⟩)))
  | unshut (l : Listener Nat) (conn : Handle Nat) (peer : Descriptor) (total reads : UInt64)
      (e : IoError) :
      Turn (closing l conn peer total reads) (.answered (.shutdown conn.socket .both) (.error e))
        (leaving [conn.socket, l.handle.socket] (.returned (.error (.shutdown conn.peerOrAny e))))
  | left (s : Nat) (rest : List Nat) (x : Exit (Except Failure DrainReport)) :
      Turn (leaving (s :: rest) x) (.dropped s) (leaving rest x)

/-- A server is done when it has given up all it had. -/
theorem of_exit? {x : Exit (Except Failure DrainReport)} (h : p.exit? = some x) :
    p = leaving [] x := by
  cases p with
  | leaving ss x' =>
    cases ss with
    | nil => rw [Option.some.inj h]
    | cons s rest => simp [exit?] at h
  | _ => simp [exit?] at h

theorem met_of_le (h : l.room ≤ largestBuffer) (conn : Handle Nat) (peer : Descriptor) :
    met l conn peer = receiving l conn peer 0 0 := if_pos h

theorem met_of_lt (h : largestBuffer < l.room) (conn : Handle Nat) (peer : Descriptor) :
    met l conn peer = leaving [conn.socket, l.handle.socket] .panicked :=
  if_neg (UInt64.not_le.mpr h)

/-- The sockets of a server that has accepted a peer, whether it has a buffer or not. -/
@[simp] theorem sockets_met (l : Listener Nat) (conn : Handle Nat) (peer : Descriptor) :
    (met l conn peer).sockets = [conn.socket, l.handle.socket] := by
  unfold met
  split <;> rfl

@[simp] theorem socket_draining (h : Handle Nat) : h.draining.socket = h.socket := by
  unfold Handle.draining
  split <;> rfl

theorem isConnection_draining {h : Handle Nat} (hc : h.stage.isConnection = true) :
    h.draining.stage.isConnection = true := by
  unfold Handle.draining
  split
  · rfl
  · exact hc

theorem step_accepting (hl : l.handle.stage = .listening) :
    (accepting l).step Network.transport n =
      match n.accept l.handle.socket with
      | none => none
      | some (.error e, m) =>
        some (leaving [l.handle.socket] (.returned (.error (.accept l.handle.ownOrAny e))), m)
      | some (.ok (s, peer), m) => some (met l (accepted l s peer) peer, m) := by
  have hc : Network.transport.call (.accept l.handle.socket) n = n.accept l.handle.socket := rfl
  simp only [step, Handle.accept, hl, Operation.admittedIn, beq_self_eq_true, if_true, hc]
  cases n.accept l.handle.socket with
  | none => rfl
  | some x =>
    obtain ⟨r, m⟩ := x
    cases r <;> rfl

theorem step_receiving (hc : conn.stage.isConnection = true) (peer : Descriptor)
    (total reads : UInt64) :
    (receiving l conn peer total reads).step Network.transport n =
      match n.recv conn.socket l.room.toNat with
      | none => none
      | some (.error e, m) =>
        some (leaving [conn.socket, l.handle.socket]
          (.returned (.error (.recv conn.peerOrAny e))), m)
      | some (.ok [], m) => some (closing l conn.draining peer total reads, m)
      | some (.ok (b :: bs), m) =>
        some (receiving l conn.draining peer (total + .ofNat (b :: bs).length) (reads + 1), m) := by
  simp only [step, Handle.recv, Operation.admittedIn, hc, if_true, Network.recvThrough_eq]
  cases n.recv conn.socket l.room.toNat with
  | none => rfl
  | some x =>
    obtain ⟨r, m⟩ := x
    cases r with
    | error e => simp
    | ok bytes => cases bytes <;> rfl

theorem step_closing (hc : conn.stage.isConnection = true) (peer : Descriptor)
    (total reads : UInt64) :
    (closing l conn peer total reads).step Network.transport n =
      match n.shutdown conn.socket .both with
      | none => none
      | some (.error e, m) =>
        some (leaving [conn.socket, l.handle.socket]
          (.returned (.error (.shutdown conn.peerOrAny e))), m)
      | some (.ok (), m) =>
        some (leaving [conn.socket, l.handle.socket]
          (.returned (.ok ⟨l.own, peer, total, reads⟩)), m) := by
  have hn : Network.transport.call (.shutdown conn.socket .both) n = n.shutdown conn.socket .both :=
    rfl
  simp only [step, Handle.shutdown, Operation.admittedIn, hc, if_true, hn]
  cases n.shutdown conn.socket .both with
  | none => rfl
  | some x =>
    obtain ⟨r, m⟩ := x
    cases r <;> rfl

theorem step_leaving (s : Nat) (rest : List Nat) (x : Exit (Except Failure DrainReport)) :
    (leaving (s :: rest) x).step Network.transport n = some (leaving rest x, n.drop s) := rfl

/-- A step of a server is a turn that it takes and a step of the network. -/
theorem turn_of_step (hp : p.Staged) (h : p.step Network.transport n = some (p', n')) :
    ∃ e, Turn p e p' ∧ n.Step e n' := by
  cases p with
  | accepting l =>
    rw [step_accepting hp] at h
    split at h <;> simp only [Option.some.injEq, Prod.mk.injEq, reduceCtorEq] at h
    · obtain ⟨rfl, rfl⟩ := h
      exact ⟨_, .aborted _ _, .call (q := .accept _) ‹_›⟩
    · obtain ⟨rfl, rfl⟩ := h
      exact ⟨_, .accepted _ _ _, .call (q := .accept _) ‹_›⟩
  | receiving l conn peer total reads =>
    rw [step_receiving hp] at h
    split at h <;> simp only [Option.some.injEq, Prod.mk.injEq, reduceCtorEq] at h
    · obtain ⟨rfl, rfl⟩ := h
      exact ⟨_, .cut _ _ _ _ _ _, .call (q := .recv _ _) ‹_›⟩
    · obtain ⟨rfl, rfl⟩ := h
      exact ⟨_, .drained _ _ _ _ _, .call (q := .recv _ _) ‹_›⟩
    · obtain ⟨rfl, rfl⟩ := h
      exact ⟨_, .received _ _ _ _ _ _ (by simp), .call (q := .recv _ _) ‹_›⟩
  | closing l conn peer total reads =>
    rw [step_closing hp] at h
    split at h <;> simp only [Option.some.injEq, Prod.mk.injEq, reduceCtorEq] at h
    · obtain ⟨rfl, rfl⟩ := h
      exact ⟨_, .unshut _ _ _ _ _ _, .call (q := .shutdown _ _) ‹_›⟩
    · obtain ⟨rfl, rfl⟩ := h
      exact ⟨_, .shut _ _ _ _ _, .call (q := .shutdown _ _) ‹_›⟩
  | leaving ss x =>
    cases ss with
    | nil => simp [step] at h
    | cons s rest =>
      rw [step_leaving, Option.some.injEq, Prod.mk.injEq] at h
      obtain ⟨rfl, rfl⟩ := h
      exact ⟨_, .left _ _ _, .drop s⟩

end Drain
end Handoff
