import Handoff.Kernel
import Handoff.Proofs.Exchange.Listening
import Handoff.Proofs.Loopback.Binding

/-!
Which backlogs the two transports listen with. Within a network it is every one. The kernel is asked
for as many places as a signed number holds, at most, which it takes only below its own limit; so a
larger backlog is refused, and a server that asks for one is not set up. The main statement is
`backlogs_of_transports`.
-/
namespace Handoff

open Loopback (Network)
open Kernel (Machine)

/-! ### The kernel -/

namespace Kernel

/-- The numbers that backlogs are handed on as are never negative, so their limit alone decides. -/
theorem takesBacklog_handedBacklog (backlog : UInt32) :
    takesBacklog (handedBacklog backlog) = decide (backlog.toNat < 4096) := by
  rw [takesBacklog, handedBacklog, queueLimit, greatestBacklog, Bool.eq_iff_iff]
  simp only [Bool.and_eq_true, decide_eq_true_eq]
  omega

namespace Machine

variable {m : Machine} {s : Nat} {own : Binding}

theorem listen_of_bound (hs : m.slot s = .bound own) (backlog : UInt32) :
    m.listen s backlog =
      if backlog.toNat < 4096 then some (.ok (), m.setSlot s (.listening own))
      else some (.error (.system .inval), m) := by
  rw [listen, takesBacklog_handedBacklog, hs]
  by_cases hb : backlog.toNat < 4096
  · rw [if_pos hb, if_pos (decide_eq_true hb)]
  · rw [if_neg hb, if_neg (by simpa using hb)]
    rfl

/-- A machine with a new socket. -/
def made (m : Machine) : Machine := { m with slots := m.slots ++ [.unbound] }

theorem slot_of_bind {m' : Machine} {a : Descriptor} (hl : s < m.slots.length)
    (h : m.bind s a = some (.ok (), m')) : m'.slot s = .bound (Binding.ofEndpoint a.endpoint) := by
  unfold Machine.bind at h
  split at h
  · dsimp only at h
    split_ifs at h
    · simp [fail] at h
    · simp [fail] at h
    · simp [fail] at h
    · simp only [Option.some.injEq, Prod.mk.injEq, true_and] at h
      subst h
      simp [slot, setSlot, hl]
  · simp [fail] at h

end Machine
end Kernel

/-! ### Servers -/

namespace Server

variable {σ κ : Type} {T : Transport σ κ} {cfg : Config} {w w₁ w₂ w₃ w₄ : σ} {s : κ}

/-- A server whose listen is refused gives its socket up. -/
theorem listen_of_refused {e : IoError} (hs : T.call .socket w = some (.ok s, w₁))
    (hb : T.call (.bind s cfg.bind) w₁ = some (.ok (), w₂))
    (hl : T.call (.listen s cfg.backlog) w₂ = some (.error e, w₃)) :
    listen T cfg w = some (.error (.listen cfg.bind cfg.backlog e), T.release s w₃) := by
  simp [listen, Handle.create, hs, Handle.bind, Operation.admittedIn, hb, Handle.listen, hl,
    Handle.ownOrAny]

theorem listen_of_accepted {r : Except IoError Descriptor}
    (hs : T.call .socket w = some (.ok s, w₁))
    (hb : T.call (.bind s cfg.bind) w₁ = some (.ok (), w₂))
    (hl : T.call (.listen s cfg.backlog) w₂ = some (.ok (), w₃))
    (ha : T.call (.localAddr s) w₃ = some (r, w₄)) :
    ∃ l, listen T cfg w = some (.ok l, w₄) := by
  cases r with
  | error e =>
    simp [listen, Handle.create, hs, Handle.bind, Operation.admittedIn, hb, Handle.listen, hl,
      Handle.localAddr, ha]
  | ok d =>
    simp [listen, Handle.create, hs, Handle.bind, Operation.admittedIn, hb, Handle.listen, hl,
      Handle.localAddr, ha]

section Kernel

variable {m m' : Machine}

theorem call_socket (m : Machine) :
    Machine.transport.call .socket m = some (.ok m.slots.length, m.made) := rfl

/-- A server is refused a backlog from the limit on, and leaves a closed socket behind. -/
theorem listen_of_large (hb : m.made.bind m.slots.length cfg.bind = some (.ok (), m'))
    (hl : 4096 ≤ cfg.backlog.toNat) :
    listen Machine.transport cfg m =
      some (.error (.listen cfg.bind cfg.backlog (.system .inval)),
        m'.setSlot m.slots.length .closed) := by
  have hslot := Machine.slot_of_bind (by simp [Machine.made]) hb
  have hlisten := Machine.listen_of_bound hslot cfg.backlog
  rw [if_neg (Nat.not_lt.mpr hl)] at hlisten
  exact listen_of_refused (call_socket m) hb hlisten

theorem listen_of_small (hb : m.made.bind m.slots.length cfg.bind = some (.ok (), m'))
    (hl : cfg.backlog.toNat < 4096) :
    ∃ l m'', listen Machine.transport cfg m = some (.ok l, m'') := by
  have hslot := Machine.slot_of_bind (by simp [Machine.made]) hb
  have hlisten := Machine.listen_of_bound hslot cfg.backlog
  rw [if_pos hl] at hlisten
  obtain ⟨l, h⟩ : ∃ l, listen Machine.transport cfg m = some (.ok l, _) :=
    listen_of_accepted (call_socket m) hb hlisten rfl
  exact ⟨l, _, h⟩

end Kernel

/-- Within a network a server is set up with every backlog. -/
theorem listen_of_bound {n n' : Network}
    (hb : n.made.bind n.slots.length cfg.bind = some (.ok (), n')) :
    ∃ l n'', listen Network.transport cfg n = some (.ok l, n'') := by
  obtain ⟨own, hslot, -⟩ := Loopback.Network.slot_of_bind (by simp [Network.made]) hb
  have hlisten := Loopback.Network.listen_eq hslot cfg.backlog
  have hlistening := (Loopback.Network.slot_of_listen hslot hlisten).2
  have haddr := Loopback.Network.localAddr_of_own? (d := own) (by rw [hlistening]; rfl)
  have hsocket : Network.transport.call .socket n = some (.ok n.slots.length, n.made) := rfl
  obtain ⟨l, h⟩ : ∃ l, listen Network.transport cfg n = some (.ok l, _) :=
    listen_of_accepted hsocket hb hlisten haddr
  exact ⟨l, _, h⟩

end Server

/-- A bound socket listens with every backlog within a network. On a machine it does so exactly with
a backlog below 4096, and stays as it is otherwise: the number that a larger one is handed on as is
none that the kernel takes. So with its address free a server is always set up within a network, but
on a machine only with such a backlog; its run fails with the listen otherwise, and the socket is
closed. -/
theorem backlogs_of_transports (backlog : UInt32) :
    (∀ (n : Network) s own, n.slot s = .bound own →
      ∃ n', n.listen s backlog = some (.ok (), n')) ∧
    (∀ (m : Machine) s own, m.slot s = .bound own →
      m.listen s backlog =
        if backlog.toNat < 4096 then some (.ok (), m.setSlot s (.listening own))
        else some (.error (.system .inval), m)) ∧
    (∀ cfg (n n' : Network), cfg.backlog = backlog →
      n.made.bind n.slots.length cfg.bind = some (.ok (), n') →
      ∃ l n'', Server.listen Network.transport cfg n = some (.ok l, n'')) ∧
    ∀ cfg (m m' : Machine), cfg.backlog = backlog →
      m.made.bind m.slots.length cfg.bind = some (.ok (), m') →
      ((∃ l m'', Server.listen Machine.transport cfg m = some (.ok l, m'')) ↔
        backlog.toNat < 4096) ∧
      (4096 ≤ backlog.toNat →
        Server.run Machine.transport cfg m =
          some (.returned (.error (.listen cfg.bind backlog (.system .inval))),
            m'.setSlot m.slots.length .closed)) := by
  refine ⟨?_, fun m s own hs => Machine.listen_of_bound hs backlog,
    fun cfg n n' _ hb => Server.listen_of_bound hb, ?_⟩
  · intro n s own hs
    exact ⟨_, Loopback.Network.listen_eq hs backlog⟩
  · rintro cfg m m' rfl hb
    refine ⟨⟨?_, Server.listen_of_small hb⟩, ?_⟩
    · rintro ⟨l, m'', h⟩
      by_contra hl
      rw [Server.listen_of_large hb (Nat.le_of_not_lt hl)] at h
      simp at h
    · intro hl
      rw [Server.run, Server.listen_of_large hb hl]

/-- A server at the wildcard context is set up with a backlog of 4095, and fails with one more. -/
theorem backlogs_of_wildcard_server :
    let cfg : Server.Config := { bind := Descriptor.bind anyCid 5000, backlog := 4095 }
    (∃ l m, Server.listen Machine.transport cfg Machine.standalone = some (.ok l, m)) ∧
    ∃ m, Server.run Machine.transport { cfg with backlog := 4096 } Machine.standalone =
      some (.returned (.error (.listen cfg.bind 4096 (.system .inval))), m) := by
  intro cfg
  obtain ⟨-, -, -, hbelow⟩ := backlogs_of_transports 4095
  obtain ⟨-, -, -, hfrom⟩ := backlogs_of_transports 4096
  have hb : Machine.standalone.made.bind Machine.standalone.slots.length cfg.bind =
      some (.ok (), { Machine.standalone with
        slots := [.bound (Kernel.Binding.ofEndpoint cfg.bind.endpoint)] }) := by decide
  constructor
  · exact (hbelow cfg _ _ rfl hb).1.mpr (by decide)
  · exact ⟨_, (hfrom { cfg with backlog := 4096 } _ _ rfl hb).2 (by decide)⟩

/-- The greatest backlog is handed on as a number that the kernel does not take, so it is not true
that a bound socket listens with every backlog. -/
theorem refused_of_greatest_backlog :
    Kernel.handedBacklog 4294967295 = 2147483647 ∧
    Kernel.takesBacklog (Kernel.handedBacklog 4294967295) = false ∧
    ¬∀ (m : Machine) s own backlog, m.slot s = .bound own →
      ∃ m', m.listen s backlog = some (.ok (), m') := by
  refine ⟨by decide, by decide, fun h => ?_⟩
  let own : Kernel.Binding := ⟨anyCid, some 5000⟩
  let m : Machine := { Machine.standalone with slots := [.bound own] }
  obtain ⟨m', hlisten⟩ := h m 0 own 4294967295 rfl
  have hrefused : m.listen 0 4294967295 = some (.error (.system .inval), m) := by decide
  rw [hrefused] at hlisten
  simp at hlisten

end Handoff
