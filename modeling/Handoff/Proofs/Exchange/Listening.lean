import Handoff.Pair
import Handoff.Proofs.Loopback.Frame

/-!
Setting a server up over a network: it ends in a listener with a socket, an endpoint and an empty
queue of its own.
-/
namespace Handoff

open Loopback (Network Slot Queue)
open Loopback.Network

namespace Loopback.Network

variable {n n' : Network} {s : Nat}

theorem slot_of_bind {a : Descriptor} (hl : s < n.slots.length)
    (h : n.bind s a = some (.ok (), n')) :
    ∃ own, n'.slot s = .bound own ∧ n'.slots = n.slots.set s (.bound own) := by
  unfold bind at h
  split at h
  · dsimp only at h
    generalize (if a.cid = anyCid then n.cid else a.cid) = cid at h
    split at h
    · simp at h
    rename_i port m hp
    have hm : m.slots = n.slots := by rw [(of_choosePort hp).1]
    split at h
    · simp at h
    · simp only [Option.some.injEq, Prod.mk.injEq, true_and] at h
      have hs : n'.slots = n.slots.set s (.bound (Descriptor.local cid port)) := by
        rw [← h, ← hm]
        rfl
      refine ⟨_, ?_, hs⟩
      rw [slot_of_slots_set hs hl, if_pos rfl]
  · simp at h

theorem listen_eq {own : Descriptor} (hs : n.slot s = .bound own) (backlog : UInt32) :
    n.listen s backlog = some (.ok (),
      { n with
        queues := n.queues ++ [Queue.ofBacklog backlog]
        registry := n.registry.put own.endpoint (some n.queues.length)
        slots := n.slots.set s (.listening own n.queues.length) }) := by
  simp only [listen, hs]
  rfl

/-- A bound socket listens on the queue that is new. -/
theorem slot_of_listen {own : Descriptor} {backlog : UInt32} {r : Except IoError Unit}
    (hs : n.slot s = .bound own) (h : n.listen s backlog = some (r, n')) :
    r = .ok () ∧ n'.slot s = .listening own n.queues.length := by
  rw [listen_eq hs, Option.some.injEq, Prod.mk.injEq] at h
  obtain ⟨rfl, rfl⟩ := h
  refine ⟨rfl, ?_⟩
  rw [slot_of_slots_set rfl (lt_of_slot hs (by simp)), if_pos rfl]

end Loopback.Network

namespace Server

variable {cfg : Config} {n n' : Network} {l : Listener Nat}

/-- Setting up is to make a socket, to bind it and to listen, and to look up its address. -/
theorem listen_eq (cfg : Config) (n : Network) :
    listen Network.transport cfg n =
      match ({ n with slots := n.slots ++ [.fresh] } : Network).bind n.slots.length cfg.bind with
      | none => none
      | some (.error e, m) => some (.error (.bind cfg.bind e), m.drop n.slots.length)
      | some (.ok (), m) =>
        match m.listen n.slots.length cfg.backlog with
        | none => none
        | some (.error e, m) =>
          some (.error (.listen cfg.bind cfg.backlog e), m.drop n.slots.length)
        | some (.ok (), m) =>
          match m.localAddr n.slots.length with
          | none => none
          | some (r, m) =>
            some (.ok ⟨⟨n.slots.length, .listening, some cfg.bind, none⟩,
              r.toOption.getD cfg.bind, cfg.room⟩, m) := by
  have hc : Handle.create Network.transport n =
      some (.ok ⟨n.slots.length, .created, none, none⟩,
        { n with slots := n.slots ++ [.fresh] }) := rfl
  have hb (m : Network) : Network.transport.call (.bind n.slots.length cfg.bind) m =
      m.bind n.slots.length cfg.bind := rfl
  have hl (m : Network) : Network.transport.call (.listen n.slots.length cfg.backlog) m =
      m.listen n.slots.length cfg.backlog := rfl
  have ha (m : Network) : Network.transport.call (.localAddr n.slots.length) m =
      m.localAddr n.slots.length := rfl
  simp only [listen, hc, Handle.bind, Handle.listen, Handle.localAddr, Operation.admittedIn,
    beq_self_eq_true, if_true, hb]
  cases Network.bind _ n.slots.length cfg.bind with
  | none => rfl
  | some x =>
    obtain ⟨r, m⟩ := x
    cases r with
    | error e => rfl
    | ok _ =>
      simp only [beq_self_eq_true, if_true, hl]
      cases m.listen n.slots.length cfg.backlog with
      | none => rfl
      | some x =>
        obtain ⟨r, m⟩ := x
        cases r with
        | error e => rfl
        | ok _ =>
          simp only [ha]
          cases m.localAddr n.slots.length with
          | none => rfl
          | some x =>
            obtain ⟨r, m⟩ := x
            cases r <;> rfl

/-- A server that has been set up listens on an empty queue. -/
theorem of_listen (h : listen Network.transport cfg n = some (.ok l, n')) :
    ∃ q tr, Network.Run n tr n' ∧ l.handle.socket = n.slots.length ∧
      l.handle.stage = .listening ∧ l.room = cfg.room ∧
      n'.slot l.handle.socket = .listening l.own q ∧ n'.waitingIn q = [] := by
  rw [listen_eq] at h
  have hmade : Network.Step n (.answered .socket (.ok n.slots.length))
      { n with slots := n.slots ++ [.fresh] } := .call rfl
  cases hb : ({ n with slots := n.slots ++ [.fresh] } : Network).bind n.slots.length cfg.bind with
  | none => simp [hb] at h
  | some x =>
    obtain ⟨r, m⟩ := x
    cases r with
    | error e => simp [hb] at h
    | ok _ =>
      obtain ⟨own, hs, hslots⟩ := slot_of_bind (by simp) hb
      have hlisten := Loopback.Network.listen_eq hs cfg.backlog
      have hrun := ((Network.Run.nil.snoc hmade).snoc
        (.call (q := .bind n.slots.length cfg.bind) hb)).snoc
        (.call (q := .listen n.slots.length cfg.backlog) hlisten)
      have hslot := (slot_of_listen hs hlisten).2
      have haddr := localAddr_of_own? (d := own) (by rw [hslot]; rfl)
      simp only [hb, hlisten, haddr, Option.some.injEq, Prod.mk.injEq, Except.ok.injEq] at h
      obtain ⟨rfl, rfl⟩ := h
      refine ⟨_, _, hrun, rfl, rfl, rfl, hslot, ?_⟩
      simp [waitingIn, Queue.ofBacklog]

end Server
end Handoff
