import Handoff.Loopback.Network
import Handoff.Proofs.Loopback.Pipe
import Handoff.Proofs.Loopback.Registry

/-!
Runs of a network, and all that one operation can do to it. Whatever is shown of every `Change` is
kept by every run; no other module looks into the operations themselves.
-/
namespace Handoff.Loopback

namespace Slot

/-- The address of a socket that has one. -/
def own? : Slot → Option Descriptor
  | .bound own | .listening own _ | .connected own _ _ => some own
  | .fresh | .closed => none

/-- The endpoint that a socket owns, with its queue once it listens. -/
def holding? : Slot → Option (Endpoint × Option Nat)
  | .bound own | .connected own _ .caller => some (own.endpoint, none)
  | .listening own q => some (own.endpoint, some q)
  | .fresh | .connected _ _ .callee | .closed => none

/-- The queue that a socket listens on. -/
def queue? : Slot → Option Nat
  | .listening _ q => some q
  | .fresh | .bound _ | .connected .. | .closed => none

/-- The end of a connection that a socket holds. -/
def end? : Slot → Option (Nat × Side)
  | .connected _ c side => some (c, side)
  | .fresh | .bound _ | .listening .. | .closed => none

/-- A socket that may connect: one that is bound, or not yet. -/
def ofCaller : Option Descriptor → Slot
  | none => .fresh
  | some own => .bound own

theorem ofCaller_ne_closed (bound : Option Descriptor) : ofCaller bound ≠ .closed := by
  cases bound <;> simp [ofCaller]

theorem listening_ne_ofCaller (own : Descriptor) (q : Nat) (bound : Option Descriptor) :
    listening own q ≠ ofCaller bound := by
  cases bound <;> simp [ofCaller]

theorem connected_ne_ofCaller (own : Descriptor) (c : Nat) (side : Side)
    (bound : Option Descriptor) : connected own c side ≠ ofCaller bound := by
  cases bound <;> simp [ofCaller]

end Slot

namespace Network

/-- What happens in one step: a request is answered, or a socket is given up. -/
inductive Event : Type 1 where
  | answered {α : Type} (q : Request Nat α) (r : Except IoError α)
  | dropped (s : Nat)

/-- The socket that something happens to. -/
def Event.subject? : Event → Option Nat
  | .answered .socket _ => none
  | .answered (.bind s _) _ | .answered (.listen s _) _ | .answered (.accept s) _
  | .answered (.connect s _) _ | .answered (.send s _) _ | .answered (.recv s _) _
  | .answered (.shutdown s _) _ | .answered (.localAddr s) _ | .dropped s => some s

/-- Whether a request that leaves all sockets as they are is answered. -/
def Event.transfers : Event → Bool
  | .answered (.send _ _) _ | .answered (.recv _ _) _ | .answered (.shutdown _ _) _
  | .answered (.localAddr _) _ => true
  | .answered _ _ | .dropped _ => false

/-- The socket that has just been made. -/
def Event.makes? : Event → Option Nat
  | .answered .socket (.ok s) | .answered (.accept _) (.ok (s, _)) => some s
  | .answered _ _ | .dropped _ => none

/-- The socket that has just been connected, with its target. -/
def Event.connects? : Event → Option (Nat × Descriptor)
  | .answered (.connect s target) (.ok _) => some (s, target)
  | .answered _ _ | .dropped _ => none

inductive Step (n : Network) : Event → Network → Prop where
  | call {α : Type} {q : Request Nat α} {r : Except IoError α} {n' : Network}
      (h : n.call q = some (r, n')) : Step n (.answered q r) n'
  | drop (s : Nat) : Step n (.dropped s) (n.drop s)

theorem Step.answer {n n' : Network} {α : Type} {q : Request Nat α} {r : Except IoError α}
    (h : Step n (.answered q r) n') : n.call q = some (r, n') := by
  cases h with
  | call h => exact h

/-- A step of a run: the network it was taken in, and what happened. -/
abbrev Moment := Network × Event

/-- A run with its moments, the earliest first. -/
inductive Run (n : Network) : List Moment → Network → Prop where
  | nil : Run n [] n
  | snoc {tr : List Moment} {m m' : Network} {e : Event} (h : Run n tr m) (hs : Step m e m') :
      Run n (tr ++ [(m, e)]) m'

theorem Run.trans {n m k : Network} {tr tr' : List Moment} (h : Run n tr m) (h' : Run m tr' k) :
    Run n (tr ++ tr') k := by
  induction h' with
  | nil => simpa using h
  | snoc _ hs ih =>
    rw [← List.append_assoc]
    exact .snoc ih hs

/-- All that one operation can do. An operation that fails changes nothing, but for the port
counter when a queue refuses a caller that was not bound. -/
inductive Change (n : Network) : Event → Network → Prop where
  | failed {α : Type} (q : Request Nat α) (e : IoError) : Change n (.answered q (.error e)) n
  | told {s : Nat} {d : Descriptor} (h : n.localAddr s = some (.ok d, n)) :
      Change n (.answered (.localAddr s) (.ok d)) n
  | made : Change n (.answered .socket (.ok n.slots.length)) { n with slots := n.slots ++ [.fresh] }
  | bound {s : Nat} {a : Descriptor} {cid port : UInt32} {m : Network} (hs : n.slot s = .fresh)
      (hcid : cid = if a.cid = anyCid then n.cid else a.cid)
      (hp : n.choosePort cid a.port = some (port, m)) (hf : n.registry.has ⟨cid, port⟩ = false) :
      Change n (.answered (.bind s a) (.ok ()))
        { n with
          counter := m.counter
          registry := n.registry.put ⟨cid, port⟩ none
          slots := n.slots.set s (.bound (Descriptor.local cid port)) }
  | listening {s : Nat} {own : Descriptor} {backlog : UInt32} (hs : n.slot s = .bound own) :
      Change n (.answered (.listen s backlog) (.ok ()))
        { n with
          queues := n.queues ++ [Queue.ofBacklog backlog]
          registry := n.registry.put own.endpoint (some n.queues.length)
          slots := n.slots.set s (.listening own n.queues.length) }
  | accepted {s : Nat} {own : Descriptor} {q : Nat} {queue : Queue} {p : Pending}
      {rest : List Pending} (hs : n.slot s = .listening own q) (hq : n.queues[q]? = some queue)
      (hp : queue.pending = p :: rest) :
      Change n (.answered (.accept s) (.ok (n.slots.length, p.peer)))
        { n with
          queues := n.queues.set q { queue with pending := rest }
          slots := n.slots ++ [.connected p.own p.connection .callee] }
  | connected {s : Nat} {bound : Option Descriptor} {own target : Descriptor} {q : Nat}
      {queue : Queue} {m : Network} (hs : n.slot s = Slot.ofCaller bound)
      (hr : n.route bound target = some (.ok (q, own), m)) (hq : n.queues[q]? = some queue)
      (ht : queue.takes = true) :
      Change n (.answered (.connect s target) (.ok ()))
        { n with
          counter := m.counter
          registry := m.registry
          queues := n.queues.set q (queue.push {
            own := Descriptor.local target.cid target.port
            peer := Descriptor.peer own.cid own.port
            connection := n.connections.length })
          connections := n.connections ++ [.fresh]
          slots := n.slots.set s (.connected own n.connections.length .caller) }
  | crowded {s : Nat} {bound : Option Descriptor} {own target : Descriptor} {q : Nat} {m : Network}
      (hs : n.slot s = Slot.ofCaller bound)
      (hr : n.route bound target = some (.ok (q, own), m))
      (hq : ∀ queue, n.queues[q]? = some queue → queue.takes = false) :
      Change n (.answered (.connect s target) (.error (.plain .connectionRefused)))
        { n with counter := m.counter }
  | sent {s : Nat} {own : Descriptor} {c : Nat} {side : Side} {conn : Connection}
      {data : List UInt8} {p : Pipe} (hs : n.slot s = .connected own c side)
      (hc : n.connections[c]? = some conn)
      (hw : (conn.outgoing side).write data = (.ok data.length, p)) :
      Change n (.answered (.send s data) (.ok data.length))
        { n with connections := n.connections.set c (conn.setOutgoing side p) }
  | received {s : Nat} {own : Descriptor} {c : Nat} {side : Side} {conn : Connection} {room : Nat}
      {bytes : List UInt8} {p : Pipe} (hs : n.slot s = .connected own c side)
      (hc : n.connections[c]? = some conn) (hr : (conn.incoming side).read room = some (bytes, p)) :
      Change n (.answered (.recv s room) (.ok bytes))
        { n with connections := n.connections.set c (conn.setIncoming side p) }
  | shut {s : Nat} {own : Descriptor} {c : Nat} {side : Side} {how : Direction}
      (hs : n.slot s = .connected own c side) :
      Change n (.answered (.shutdown s how) (.ok ())) (n.modifyConnection c (·.shut side how))
  | dropped (s : Nat) : Change n (.dropped s) (n.drop s)

/-- A request that is answered with an error at once. -/
theorem Change.of_answer {n n' : Network} {α : Type} {q : Request Nat α} {e : IoError}
    {r : Except IoError α} (h : some (.error e, n) = some (r, n')) :
    Change n (.answered q r) n' := by
  simp only [Option.some.injEq, Prod.mk.injEq] at h
  obtain ⟨rfl, rfl⟩ := h
  exact .failed _ _

/-- A chosen port is free, and changes the counter alone. -/
theorem of_choosePort {n m : Network} {cid port port' : UInt32}
    (h : n.choosePort cid port = some (port', m)) :
    m = { n with counter := m.counter } ∧
      (port = anyPort ∧ allocate? n.registry cid n.counter = some (port', m.counter) ∨
        port ≠ anyPort ∧ port' = port ∧ m = n) := by
  unfold choosePort at h
  split at h
  · rename_i hp
    obtain ⟨⟨p, next⟩, ha, he⟩ := Option.map_eq_some_iff.mp h
    simp only [Prod.mk.injEq] at he
    obtain ⟨rfl, rfl⟩ := he
    exact ⟨rfl, .inl ⟨hp, ha⟩⟩
  · rename_i hp
    simp only [Option.some.injEq, Prod.mk.injEq] at h
    obtain ⟨rfl, rfl⟩ := h
    exact ⟨rfl, .inr ⟨hp, rfl, rfl⟩⟩

/-- A caller is routed to the queue at its target. One that was not bound has a new endpoint. -/
theorem of_route {n m : Network} {bound : Option Descriptor} {target own : Descriptor} {q : Nat}
    (h : n.route bound target = some (.ok (q, own), m)) :
    n.registry.queue? target.endpoint = some q ∧
      m = { n with counter := m.counter, registry := m.registry } ∧
      (bound = some own ∧ m = n ∨
        bound = none ∧ ∃ port, allocate? n.registry n.cid n.counter = some (port, m.counter) ∧
          own = Descriptor.local n.cid port ∧
          m.registry = n.registry.put ⟨n.cid, port⟩ none) := by
  unfold route at h
  split at h
  · simp at h
  rename_i q' hq
  split at h
  · rename_i own'
    simp only [Option.some.injEq, Prod.mk.injEq, Except.ok.injEq] at h
    obtain ⟨⟨rfl, rfl⟩, rfl⟩ := h
    exact ⟨hq, rfl, .inl ⟨rfl, rfl⟩⟩
  · split at h
    · simp at h
    rename_i port next ha
    simp only [Option.some.injEq, Prod.mk.injEq, Except.ok.injEq] at h
    obtain ⟨⟨rfl, rfl⟩, rfl⟩ := h
    exact ⟨hq, rfl, .inr ⟨rfl, port, ha, rfl, rfl⟩⟩

theorem route_of_bound {n : Network} {target : Descriptor} {q : Nat}
    (hq : n.registry.queue? target.endpoint = some q) (own : Descriptor) :
    n.route (some own) target = some (.ok (q, own), n) := by
  simp only [route, hq]

theorem route_of_fresh {n : Network} {target : Descriptor} {q : Nat} {port next : UInt32}
    (hq : n.registry.queue? target.endpoint = some q)
    (ha : allocate? n.registry n.cid n.counter = some (port, next)) :
    n.route none target = some (.ok (q, Descriptor.local n.cid port),
      { n with counter := next, registry := n.registry.put ⟨n.cid, port⟩ none }) := by
  simp only [route, hq, ha]

/-- A route that fails leaves no trace. -/
theorem of_route_error {n m : Network} {bound : Option Descriptor} {target : Descriptor}
    {e : IoError} (h : n.route bound target = some (.error e, m)) :
    m = n ∧ e = .plain .connectionRefused ∧ n.registry.queue? target.endpoint = none := by
  unfold route at h
  split at h
  · rename_i hq
    simp only [Option.some.injEq, Prod.mk.injEq, Except.error.injEq] at h
    exact ⟨h.2.symm, h.1.symm, hq⟩
  · split at h
    · simp at h
    · split at h <;> simp at h

/-- A caller that is turned away gives back what its route gave it. -/
theorem unroute_of_route {n m : Network} {bound : Option Descriptor} {target own : Descriptor}
    {q : Nat} (h : n.route bound target = some (.ok (q, own), m)) :
    m.unroute bound own = { n with counter := m.counter } := by
  obtain ⟨-, hm, ⟨rfl, rfl⟩ | ⟨rfl, port, ha, rfl, hr⟩⟩ := of_route h
  · rfl
  · have he : (n.registry.put ⟨n.cid, port⟩ none).erase ⟨n.cid, port⟩ = n.registry :=
      Registry.erase_put (of_allocate?_eq_some ha).1 none
    rw [unroute, release, hm]
    simp only [Network.mk.injEq, true_and, and_true]
    rw [hr]
    exact he

theorem change_of_bind {n n' : Network} {s : Nat} {a : Descriptor} {r : Except IoError Unit}
    (h : n.bind s a = some (r, n')) : Change n (.answered (.bind s a) r) n' := by
  unfold bind at h
  split at h
  · rename_i hs
    dsimp only at h
    generalize hcid : (if a.cid = anyCid then n.cid else a.cid) = cid at h
    split at h
    · simp at h
    rename_i port m hp
    obtain ⟨hm, hc⟩ := of_choosePort hp
    have hr : m.registry = n.registry := by rw [hm]
    rw [hr] at h
    split at h
    · rename_i hh
      simp only [Option.some.injEq, Prod.mk.injEq] at h
      obtain ⟨rfl, rfl⟩ := h
      -- a port chosen for the caller is free, so the taken one was asked for
      rcases hc with ⟨-, ha⟩ | ⟨-, -, rfl⟩
      · rw [(of_allocate?_eq_some ha).1] at hh
        simp at hh
      · exact .failed _ _
    · rename_i hf
      simp only [Option.some.injEq, Prod.mk.injEq] at h
      obtain ⟨rfl, rfl⟩ := h
      have hb := Change.bound hs hcid.symm hp (Bool.eq_false_iff.mpr hf)
      rw [hm]
      exact hb
  · exact .of_answer h

theorem change_of_listen {n n' : Network} {s : Nat} {backlog : UInt32} {r : Except IoError Unit}
    (h : n.listen s backlog = some (r, n')) : Change n (.answered (.listen s backlog) r) n' := by
  unfold listen at h
  split at h
  · rename_i own hs
    simp only [Option.some.injEq, Prod.mk.injEq] at h
    obtain ⟨rfl, rfl⟩ := h
    exact .listening hs
  · exact .of_answer h

/-- A connection taken out of a queue is its first. -/
theorem of_dequeue {n m : Network} {q : Nat} {r : Except IoError Pending}
    (h : n.dequeue q = some (r, m)) :
    (∃ queue p rest, n.queues[q]? = some queue ∧ queue.pending = p :: rest ∧ r = .ok p ∧
      m = { n with queues := n.queues.set q { queue with pending := rest } }) ∨
    (r = .error (.plain .connectionAborted) ∧ m = n ∧
      ∀ queue, n.queues[q]? = some queue → queue.closed = true) := by
  unfold dequeue at h
  split at h
  · rename_i hq
    simp only [Option.some.injEq, Prod.mk.injEq] at h
    exact .inr ⟨h.1.symm, h.2.symm, by simp [hq]⟩
  rename_i queue hq
  split at h
  · rename_i p rest hp
    simp only [Option.some.injEq, Prod.mk.injEq] at h
    exact .inl ⟨queue, p, rest, hq, hp, h.1.symm, h.2.symm⟩
  · split at h
    · rename_i hc
      simp only [Option.some.injEq, Prod.mk.injEq] at h
      exact .inr ⟨h.1.symm, h.2.symm, by simp [hq, hc]⟩
    · simp at h

theorem change_of_accept {n n' : Network} {s : Nat} {r : Except IoError (Nat × Descriptor)}
    (h : n.accept s = some (r, n')) : Change n (.answered (.accept s) r) n' := by
  unfold accept at h
  split at h
  · rename_i own q hs
    split at h
    · simp at h
    · rename_i e m hd
      simp only [Option.some.injEq, Prod.mk.injEq] at h
      obtain ⟨rfl, rfl⟩ := h
      obtain ⟨queue, p, rest, -, -, he, -⟩ | ⟨-, rfl, -⟩ := of_dequeue hd
      · simp at he
      · exact .failed _ _
    · rename_i p m hd
      simp only [Option.some.injEq, Prod.mk.injEq] at h
      obtain ⟨rfl, rfl⟩ := h
      obtain ⟨queue, p', rest, hq, hp, he, rfl⟩ | ⟨he, -⟩ := of_dequeue hd
      · cases he
        exact .accepted hs hq hp
      · simp at he
  · exact .of_answer h

/-- A queue that takes a caller has a new connection at its end. -/
theorem of_enqueue {n m : Network} {q c : Nat} {own target : Descriptor}
    (h : n.enqueue q own target = some (c, m)) :
    ∃ queue, n.queues[q]? = some queue ∧ queue.takes = true ∧ c = n.connections.length ∧
      m = { n with
        queues := n.queues.set q (queue.push {
          own := Descriptor.local target.cid target.port
          peer := Descriptor.peer own.cid own.port
          connection := n.connections.length })
        connections := n.connections ++ [.fresh] } := by
  unfold enqueue at h
  split at h
  · simp at h
  rename_i queue hq
  split at h
  · rename_i ht
    simp only [Option.some.injEq, Prod.mk.injEq] at h
    exact ⟨queue, hq, ht, h.1.symm, h.2.symm⟩
  · simp at h

theorem enqueue_of_takes {n : Network} {q : Nat} {queue : Queue} (hq : n.queues[q]? = some queue)
    (ht : queue.takes = true) (own target : Descriptor) :
    n.enqueue q own target = some (n.connections.length, { n with
      queues := n.queues.set q (queue.push {
        own := Descriptor.local target.cid target.port
        peer := Descriptor.peer own.cid own.port
        connection := n.connections.length })
      connections := n.connections ++ [.fresh] }) := by
  simp only [enqueue, hq, ht, if_true]

theorem takes_of_enqueue_eq_none {n : Network} {q : Nat} {own target : Descriptor}
    (h : n.enqueue q own target = none) (queue : Queue) (hq : n.queues[q]? = some queue) :
    queue.takes = false := by
  unfold enqueue at h
  rw [hq] at h
  simp only at h
  split at h
  · simp at h
  · rename_i ht
    exact Bool.eq_false_iff.mpr ht

theorem change_of_connectFrom {n n' : Network} {s : Nat} {bound : Option Descriptor}
    {target : Descriptor} {r : Except IoError Unit} (hs : n.slot s = Slot.ofCaller bound)
    (h : n.connectFrom s bound target = some (r, n')) :
    Change n (.answered (.connect s target) r) n' := by
  unfold connectFrom at h
  split at h
  · simp at h
  · rename_i e m hr
    simp only [Option.some.injEq, Prod.mk.injEq] at h
    obtain ⟨rfl, rfl⟩ := h
    obtain ⟨rfl, -, -⟩ := of_route_error hr
    exact .failed _ _
  · rename_i q own m hr
    obtain ⟨-, hm, -⟩ := of_route hr
    have hq : m.queues = n.queues := by rw [hm]
    split at h
    · rename_i he
      simp only [Option.some.injEq, Prod.mk.injEq] at h
      obtain ⟨rfl, rfl⟩ := h
      rw [unroute_of_route hr]
      exact .crowded hs hr fun queue hn => takes_of_enqueue_eq_none he queue (hq ▸ hn)
    · rename_i c k he
      simp only [Option.some.injEq, Prod.mk.injEq] at h
      obtain ⟨rfl, rfl⟩ := h
      obtain ⟨queue, hn, ht, rfl, rfl⟩ := of_enqueue he
      have hc := Change.connected hs hr (hq ▸ hn) ht
      rw [hm]
      exact hc

theorem change_of_connect {n n' : Network} {s : Nat} {target : Descriptor}
    {r : Except IoError Unit} (h : n.connect s target = some (r, n')) :
    Change n (.answered (.connect s target) r) n' := by
  unfold connect at h
  split at h
  · rename_i hs
    exact @change_of_connectFrom n n' s none target r hs h
  · rename_i own hs
    exact @change_of_connectFrom n n' s (some own) target r hs h
  · exact .of_answer h

theorem change_of_send {n n' : Network} {s : Nat} {data : List UInt8} {r : Except IoError Nat}
    (h : n.send s data = some (r, n')) : Change n (.answered (.send s data) r) n' := by
  unfold send at h
  split at h
  · rename_i own c side hs
    split at h
    · exact .of_answer h
    rename_i conn hc
    split at h
    · exact .of_answer h
    · rename_i k p hw
      simp only [Option.some.injEq, Prod.mk.injEq] at h
      obtain ⟨rfl, rfl⟩ := h
      obtain ⟨rfl, -⟩ := Pipe.of_write_eq_ok hw
      exact .sent hs hc hw
  · exact .of_answer h

theorem change_of_recv {n n' : Network} {s room : Nat} {r : Except IoError (List UInt8)}
    (h : n.recv s room = some (r, n')) : Change n (.answered (.recv s room) r) n' := by
  unfold recv at h
  split at h
  · rename_i own c side hs
    split at h
    · exact .of_answer h
    rename_i conn hc
    split at h
    · simp at h
    · rename_i bytes p hr
      simp only [Option.some.injEq, Prod.mk.injEq] at h
      obtain ⟨rfl, rfl⟩ := h
      exact .received hs hc hr
  · exact .of_answer h

theorem change_of_shutdown {n n' : Network} {s : Nat} {how : Direction} {r : Except IoError Unit}
    (h : n.shutdown s how = some (r, n')) : Change n (.answered (.shutdown s how) r) n' := by
  unfold shutdown at h
  split at h
  · rename_i own c side hs
    simp only [Option.some.injEq, Prod.mk.injEq] at h
    obtain ⟨rfl, rfl⟩ := h
    exact .shut hs
  · exact .of_answer h

theorem eq_of_localAddr {n n' : Network} {s : Nat} {r : Except IoError Descriptor}
    (h : n.localAddr s = some (r, n')) : n' = n := by
  unfold localAddr at h
  split at h <;> simp only [Option.some.injEq, Prod.mk.injEq] at h <;> exact h.2.symm

theorem change_of_localAddr {n n' : Network} {s : Nat} {r : Except IoError Descriptor}
    (h : n.localAddr s = some (r, n')) : Change n (.answered (.localAddr s) r) n' := by
  obtain rfl := eq_of_localAddr h
  cases r with
  | error e => exact .failed _ _
  | ok d => exact .told h

/-- Every step is a change. -/
theorem change_of_step {n n' : Network} {e : Event} (h : Step n e n') : Change n e n' := by
  cases h with
  | drop s => exact .dropped s
  | call h =>
    rename_i α q r
    cases q with
    | socket =>
      simp only [call, socket, Option.some.injEq, Prod.mk.injEq] at h
      obtain ⟨rfl, rfl⟩ := h
      exact .made
    | bind s a => exact change_of_bind h
    | listen s backlog => exact change_of_listen h
    | accept s => exact change_of_accept h
    | connect s a => exact change_of_connect h
    | send s data => exact change_of_send h
    | recv s room => exact change_of_recv h
    | shutdown s how => exact change_of_shutdown h
    | localAddr s => exact change_of_localAddr h

/-! ### Answers -/

/-- A socket that may be bound fails on an address that is taken. -/
theorem error_of_bind {n n' : Network} {s : Nat} {a : Descriptor} {e : IoError}
    (hs : n.slot s = .fresh) (h : n.bind s a = some (.error e, n')) :
    e = .plain .addrInUse := by
  unfold bind at h
  rw [hs] at h
  dsimp only at h
  generalize (if a.cid = anyCid then n.cid else a.cid) = cid at h
  split at h
  · simp at h
  split at h
  · simp only [Option.some.injEq, Prod.mk.injEq, Except.error.injEq] at h
    exact h.1.symm
  · simp at h

theorem connect_eq_connectFrom {n : Network} {s : Nat} {bound : Option Descriptor}
    (hs : n.slot s = Slot.ofCaller bound) (target : Descriptor) :
    n.connect s target = n.connectFrom s bound target := by
  cases bound <;> simp [connect, hs, Slot.ofCaller]

/-- A caller that may connect is refused, if it fails. -/
theorem error_of_connect {n n' : Network} {s : Nat} {bound : Option Descriptor}
    {target : Descriptor} {e : IoError} (hs : n.slot s = Slot.ofCaller bound)
    (h : n.connect s target = some (.error e, n')) : e = .plain .connectionRefused := by
  rw [connect_eq_connectFrom hs] at h
  unfold connectFrom at h
  split at h
  · simp at h
  · rename_i e' m hr
    simp only [Option.some.injEq, Prod.mk.injEq, Except.error.injEq] at h
    exact h.1 ▸ (of_route_error hr).2.1
  · split at h
    · simp only [Option.some.injEq, Prod.mk.injEq, Except.error.injEq] at h
      exact h.1.symm
    · simp at h

theorem shutdown_eq {n : Network} {s c : Nat} {own : Descriptor} {side : Side}
    (hs : n.slot s = .connected own c side) (how : Direction) :
    n.shutdown s how = some (.ok (), n.modifyConnection c (·.shut side how)) := by
  rw [shutdown, hs]

theorem not_error_of_shutdown {n n' : Network} {s c : Nat} {own : Descriptor} {side : Side}
    {how : Direction} {e : IoError} (hs : n.slot s = .connected own c side) :
    n.shutdown s how ≠ some (.error e, n') := by
  rw [shutdown_eq hs]
  simp

theorem accept_eq {n : Network} {s q : Nat} {own : Descriptor} {queue : Queue} {p : Pending}
    {rest : List Pending} (hs : n.slot s = .listening own q) (hq : n.queues[q]? = some queue)
    (hp : queue.pending = p :: rest) :
    n.accept s = some (.ok (n.slots.length, p.peer),
      { n with
        queues := n.queues.set q { queue with pending := rest }
        slots := n.slots ++ [.connected p.own p.connection .callee] }) := by
  simp only [accept, hs, dequeue, hq, hp]

theorem accept_eq_none {n : Network} {s q : Nat} {own : Descriptor} {queue : Queue}
    (hs : n.slot s = .listening own q) (hq : n.queues[q]? = some queue)
    (hp : queue.pending = []) (hc : queue.closed = false) : n.accept s = none := by
  simp [accept, hs, dequeue, hq, hp, hc]

/-! ### Slots -/

theorem getElem?_of_slot {n : Network} {s : Nat} {t : Slot} (h : n.slot s = t) (ht : t ≠ .closed) :
    n.slots[s]? = some t := by
  unfold slot at h
  cases hs : n.slots[s]? with
  | none => rw [hs] at h; exact absurd h.symm ht
  | some u => rw [hs] at h; exact congrArg some h

theorem slot_of_getElem? {n : Network} {s : Nat} {t : Slot} (h : n.slots[s]? = some t) :
    n.slot s = t := by simp [slot, h]

theorem lt_of_slot {n : Network} {s : Nat} {t : Slot} (h : n.slot s = t) (ht : t ≠ .closed) :
    s < n.slots.length := (List.getElem?_eq_some_iff.mp (getElem?_of_slot h ht)).1

theorem slot_of_slots_set {n n' : Network} {s : Nat} {t : Slot} (h : n'.slots = n.slots.set s t)
    (hs : s < n.slots.length) (k : Nat) : n'.slot k = if k = s then t else n.slot k := by
  unfold slot
  rw [h, List.getElem?_set]
  by_cases hk : s = k
  · subst hk; simp [hs]
  · simp [hk, Ne.symm hk]

theorem slot_of_slots_append {n n' : Network} {t : Slot} (h : n'.slots = n.slots ++ [t]) (k : Nat) :
    n'.slot k = if k = n.slots.length then t else n.slot k := by
  unfold slot
  rw [h]
  by_cases hk : k = n.slots.length
  · subst hk; simp
  · rw [if_neg hk]
    by_cases hl : k < n.slots.length
    · rw [List.getElem?_append_left hl]
    · have h1 : (n.slots ++ [t])[k]? = none := by
        rw [List.getElem?_eq_none_iff, List.length_append, List.length_singleton]
        omega
      have h2 : n.slots[k]? = none := by
        rw [List.getElem?_eq_none_iff]; omega
      rw [h1, h2]

/-! ### Giving up -/

/-- The connections that wait in a queue. -/
def waitingIn (n : Network) (q : Nat) : List Pending :=
  match n.queues[q]? with
  | some queue => queue.pending
  | none => []

/-- What closing a queue does to the connections that wait in it. -/
def orphan (cs : List Connection) (pending : List Pending) : List Connection :=
  pending.foldl (fun cs p => cs.modify p.connection (·.shut .callee .both)) cs

@[simp] theorem length_orphan (cs : List Connection) (pending : List Pending) :
    (orphan cs pending).length = cs.length := by
  induction pending generalizing cs with
  | nil => rfl
  | cons p pending ih => exact (ih _).trans (List.length_modify _ _ _)

theorem closeQueue_eq (n : Network) (q : Nat) :
    n.closeQueue q =
      { n with
        queues := n.queues.modify q Queue.close
        connections := orphan n.connections (n.waitingIn q) } := by
  have hf (pending : List Pending) (m : Network) :
      pending.foldl (fun n p => n.modifyConnection p.connection (·.shut .callee .both)) m =
        { m with connections := orphan m.connections pending } := by
    induction pending generalizing m with
    | nil => rfl
    | cons p pending ih => rw [List.foldl_cons, ih]; rfl
  unfold closeQueue waitingIn
  cases h : n.queues[q]? with
  | none =>
    rw [List.modify_eq_self (List.getElem?_eq_none_iff.mp h)]
    rfl
  | some queue =>
    rw [List.modify_eq_set_getElem?, h]
    exact hf queue.pending _

theorem set_closed_of_slot {n : Network} {s : Nat} (h : n.slot s = .closed) :
    n.slots.set s .closed = n.slots := by
  unfold slot at h
  cases hs : n.slots[s]? with
  | none => exact List.set_eq_of_length_le (List.getElem?_eq_none_iff.mp hs)
  | some t =>
    rw [hs] at h
    cases h
    obtain ⟨hl, he⟩ := List.getElem?_eq_some_iff.mp hs
    rw [← he, List.set_getElem_self]

/-- The connections after the socket in a slot is given up. -/
def severed (n : Network) : Slot → List Connection
  | .listening _ q => orphan n.connections (n.waitingIn q)
  | .connected _ c side => n.connections.modify c (·.shut side .both)
  | .fresh | .bound _ | .closed => n.connections

/-- Giving a socket up closes its slot, gives back the endpoint it owns and no other, and closes the
queue it listens on and the end it holds. -/
theorem drop_eq (n : Network) (s : Nat) :
    n.drop s =
      { n with
        slots := n.slots.set s .closed
        registry :=
          match (n.slot s).holding? with
          | some (e, _) => n.registry.erase e
          | none => n.registry
        queues :=
          match (n.slot s).queue? with
          | some q => n.queues.modify q Queue.close
          | none => n.queues
        connections := n.severed (n.slot s) } := by
  unfold drop
  split <;> rename_i h <;> simp only [h]
  · rfl
  · rfl
  · rw [closeQueue_eq]
    rfl
  · split <;> rfl
  · rw [set_closed_of_slot h]
    rfl

theorem drop_slots (n : Network) (s : Nat) : (n.drop s).slots = n.slots.set s .closed := by
  rw [drop_eq]

theorem drop_counter (n : Network) (s : Nat) : (n.drop s).counter = n.counter := by
  rw [drop_eq]

theorem drop_registry (n : Network) (s : Nat) :
    (n.drop s).registry =
      match (n.slot s).holding? with
      | some (e, _) => n.registry.erase e
      | none => n.registry := by
  rw [drop_eq]

theorem drop_queues (n : Network) (s : Nat) :
    (n.drop s).queues =
      match (n.slot s).queue? with
      | some q => n.queues.modify q Queue.close
      | none => n.queues := by
  rw [drop_eq]

theorem drop_connections (n : Network) (s : Nat) :
    (n.drop s).connections = n.severed (n.slot s) := by
  rw [drop_eq]

theorem length_severed (n : Network) (t : Slot) :
    (n.severed t).length = n.connections.length := by
  cases t <;> simp [severed]

/-- A socket that nothing happens to is as it was. -/
theorem slot_frame {n n' : Network} {e : Event} {s : Nat} (h : Change n e n')
    (hl : s < n.slots.length) (he : e.subject? ≠ some s) : n'.slot s = n.slot s := by
  have happend {m : Network} {t : Slot} (hm : m.slots = n.slots ++ [t]) :
      m.slot s = n.slot s := by
    rw [slot_of_slots_append hm, if_neg (Nat.ne_of_lt hl)]
  have hset {m : Network} {k : Nat} {t : Slot} (hm : m.slots = n.slots.set k t)
      (hk : some k ≠ some s) : m.slot s = n.slot s := by
    have hk : k ≠ s := fun he => hk (congrArg some he)
    rw [slot, hm, List.getElem?_set_ne hk, slot]
  cases h with
  | failed _ _ => rfl
  | told _ => rfl
  | made => exact happend rfl
  | bound _ _ _ _ => exact hset rfl he
  | listening _ => exact hset rfl he
  | accepted _ _ _ => exact happend rfl
  | connected _ _ _ _ => exact hset rfl he
  | crowded _ _ _ => rfl
  | sent _ _ _ => rfl
  | received _ _ _ => rfl
  | shut _ => rfl
  | dropped k => exact hset (drop_slots n k) he

theorem slots_of_transfer {n n' : Network} {e : Event} (h : Change n e n')
    (he : e.transfers = true) : n'.slots = n.slots := by
  cases h with
  | failed | told | crowded | sent | received | shut => rfl
  | made | bound | listening | accepted | connected | dropped => simp [Event.transfers] at he

/-- A request that fails leaves all sockets as they are. -/
theorem slots_of_error {n n' : Network} {α : Type} {q : Request Nat α} {e : IoError}
    (h : Change n (.answered q (.error e)) n') : n'.slots = n.slots := by
  cases h <;> rfl

theorem slot_of_transfer {n n' : Network} {e : Event} (h : Change n e n')
    (he : e.transfers = true) (s : Nat) : n'.slot s = n.slot s := by
  rw [slot, slots_of_transfer h he, slot]

/-- A new socket comes after all others. -/
theorem length_slots_of_makes {n n' : Network} {e : Event} {s : Nat} (h : Change n e n')
    (he : e.makes? = some s) :
    s = n.slots.length ∧ n'.slots.length = n.slots.length + 1 := by
  cases h with
  | made =>
    cases he
    exact ⟨rfl, by simp⟩
  | accepted _ _ _ =>
    cases he
    exact ⟨rfl, by simp⟩
  | failed q _ => cases q <;> simp [Event.makes?] at he
  | _ => simp [Event.makes?] at he

/-- A caller that is connected was routed to a queue, and waits at its end with a new connection. -/
theorem of_connects {n n' : Network} {e : Event} {s : Nat} {target : Descriptor}
    (h : Change n e n') (he : e.connects? = some (s, target)) :
    ∃ bound own q queue m, n.slot s = Slot.ofCaller bound ∧
      n.route bound target = some (.ok (q, own), m) ∧ n.queues[q]? = some queue ∧
      n' = { n with
        counter := m.counter
        registry := m.registry
        queues := n.queues.set q (queue.push {
          own := Descriptor.local target.cid target.port
          peer := Descriptor.peer own.cid own.port
          connection := n.connections.length })
        connections := n.connections ++ [.fresh]
        slots := n.slots.set s (.connected own n.connections.length .caller) } := by
  cases h with
  | connected hs hr hq _ =>
    cases he
    exact ⟨_, _, _, _, _, hs, hr, hq, rfl⟩
  | failed q _ => cases q <;> simp [Event.connects?] at he
  | _ => simp [Event.connects?] at he

/-- A socket that has just been connected holds one end of a new connection. -/
theorem slot_of_connects {n n' : Network} {e : Event} {s : Nat} {target : Descriptor}
    (h : Change n e n') (he : e.connects? = some (s, target)) :
    ∃ own, n'.slot s = .connected own n.connections.length .caller ∧
      n'.connections = n.connections ++ [.fresh] := by
  obtain ⟨bound, own, q, queue, m, hs, -, -, rfl⟩ := of_connects h he
  have hl := lt_of_slot hs (Slot.ofCaller_ne_closed bound)
  refine ⟨own, ?_, rfl⟩
  rw [slot_of_slots_set rfl hl]
  exact if_pos rfl

end Network
end Handoff.Loopback
