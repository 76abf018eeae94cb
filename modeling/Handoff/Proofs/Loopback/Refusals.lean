import Handoff.Proofs.Loopback.Isolation

/-!
Requests that fail. A failure has one of a few causes, each of which can be told from the network
beforehand, and it leaves no trace but in the port counter, when a caller that was not bound is
turned away from a full queue. A network with another port counter goes the same way for as long as
nobody is handed a port. The main statement is `failed_of_run`.
-/
namespace Handoff.Loopback.Network

variable {n n' m : Network} {s q : Nat} {a own target : Descriptor} {e : IoError} {α : Type}
  {bound : Option Descriptor} {port k : UInt32}

/-- An endpoint that no socket listens on. -/
def Unserved (n : Network) (e : Endpoint) : Prop :=
  ∀ t own q, n.slot t = .listening own q → own.endpoint ≠ e

/-- An endpoint that a socket listens on with as many waiting as its queue has places. -/
def Full (n : Network) (e : Endpoint) : Prop :=
  ∃ t own q queue, n.slot t = .listening own q ∧ own.endpoint = e ∧
    n.queues[q]? = some queue ∧ queue.backlog ≤ queue.pending.length

/-- A caller that was not bound is turned away from a full queue, after it was given a port. -/
inductive TurnedAway (n : Network) : {α : Type} → Request Nat α → UInt32 → Prop where
  | intro {s : Nat} {target : Descriptor} {port : UInt32} (hs : n.slot s = .fresh)
      (ht : n.Full target.endpoint) (hp : NextFree n.registry n.cid n.counter port) :
      TurnedAway n (.connect s target) port

/-- Why a request fails, and with what error. -/
inductive Rejection (n : Network) : {α : Type} → Request Nat α → IoError → Prop where
  | taken {s : Nat} {a : Descriptor} {key : Endpoint} (hs : n.slot s = .fresh)
      (hk : n.Names a key) (ht : n.registry.has key = true) :
      Rejection n (.bind s a) (.plain .addrInUse)
  | alreadyBound {s : Nat} {a : Descriptor} (hs : n.slot s ≠ .fresh) :
      Rejection n (.bind s a) (invalid "socket is already bound")
  | notBound {s : Nat} {backlog : UInt32} (hs : ∀ own, n.slot s ≠ .bound own) :
      Rejection n (.listen s backlog) (invalid "socket is not bound")
  | notListening {s : Nat} (hs : (n.slot s).queue? = none) :
      Rejection n (.accept s) (invalid "socket is not listening")
  | notCaller {s : Nat} {target : Descriptor} (hs : ∀ bound, n.slot s ≠ Slot.ofCaller bound) :
      Rejection n (.connect s target) (invalid "socket is already connected or listening")
  | unserved {s : Nat} {bound : Option Descriptor} {target : Descriptor}
      (hs : n.slot s = Slot.ofCaller bound) (ht : n.Unserved target.endpoint) :
      Rejection n (.connect s target) (.plain .connectionRefused)
  | full {s : Nat} {own target : Descriptor} (hs : n.slot s = .bound own)
      (ht : n.Full target.endpoint) : Rejection n (.connect s target) (.plain .connectionRefused)
  | turnedAway {α : Type} {q : Request Nat α} {port : UInt32} (h : TurnedAway n q port) :
      Rejection n q (.plain .connectionRefused)
  | notConnected {s : Nat} {α : Type} (q : Transfer α) (hs : (n.slot s).end? = none) :
      Rejection n (q.request s) (.plain .notConnected)
  | broken {s c : Nat} {side : Side} {data : List UInt8} (hs : (n.slot s).end? = some (c, side))
      (hp : (n.pipe c side.other).writeClosed = true ∨ (n.pipe c side.other).readClosed = true) :
      Rejection n (.send s data) (.plain .brokenPipe)
  | noAddress {s : Nat} (hs : n.slot s = .closed) :
      Rejection n (.localAddr s) (.plain .notConnected)

/-! ### Callers -/

/-- Nobody listens where no queue is registered. -/
theorem unserved_iff (ho : Owned n) (e : Endpoint) :
    n.Unserved e ↔ n.registry.queue? e = none := by
  rw [Option.eq_none_iff_forall_ne_some]
  constructor
  · intro h q hq
    obtain ⟨t, own, ht, hown⟩ := ho.queue?_eq_some_iff.mp hq
    exact h t own q ht hown
  · intro h t own q ht hown
    exact h q (ho.queue?_eq_some_iff.mpr ⟨t, own, ht, hown⟩)

/-- A queue is full when it takes no more, as the queue of a listener is open. -/
theorem full_iff (ho : Owned n) (e : Endpoint) :
    n.Full e ↔ ∃ q queue, n.registry.queue? e = some q ∧ n.queues[q]? = some queue ∧
      queue.takes = false := by
  constructor
  · rintro ⟨t, own, q, queue, ht, rfl, hq, hl⟩
    refine ⟨q, queue, ho.queue?_eq_some_iff.mpr ⟨t, own, ht, rfl⟩, hq, ?_⟩
    simp [Queue.takes, Nat.not_lt.mpr hl]
  · rintro ⟨q, queue, hreg, hq, ht⟩
    obtain ⟨t, own, hl, hown⟩ := ho.queue?_eq_some_iff.mp hreg
    obtain ⟨queue', hq', hopen⟩ := ho.open_queue hl
    cases hq.symm.trans hq'
    refine ⟨t, own, q, queue, hl, hown, hq, ?_⟩
    simpa [Queue.takes, hopen] using ht

theorem connect_of_unserved (ho : Owned n) (hs : n.slot s = Slot.ofCaller bound)
    (ht : n.Unserved target.endpoint) :
    n.connect s target = some (.error (.plain .connectionRefused), n) := by
  have hq := (unserved_iff ho _).mp ht
  simp only [connect_eq_connectFrom hs, connectFrom, route, hq]

/-- A caller that was routed to a full queue is refused, and gives back what the route gave it. -/
theorem connect_of_full (ho : Owned n) (hs : n.slot s = Slot.ofCaller bound)
    (ht : n.Full target.endpoint) (hr : n.route bound target = some (.ok (q, own), m)) :
    n.connect s target =
      some (.error (.plain .connectionRefused), { n with counter := m.counter }) := by
  obtain ⟨q', queue, hreg, hq, hfull⟩ := (full_iff ho _).mp ht
  obtain ⟨hreg', hm, -⟩ := of_route hr
  cases hreg.symm.trans hreg'
  have hmq : m.queues[q]? = some queue := by rw [hm, hq]
  have he : m.enqueue q own target = none := by simp [enqueue, hmq, hfull]
  rw [connect_eq_connectFrom hs, connectFrom, hr]
  simp only [he, unroute_of_route hr]

/-- A caller that is turned away from a full queue has moved the port counter. -/
theorem call_of_turnedAway {p : Request Nat α} (ho : Owned n) (h : n.TurnedAway p port) :
    n.call p = some (.error (.plain .connectionRefused), { n with counter := nextPort port }) := by
  cases h with
  | @intro s target port hs ht hp =>
    have hs : n.slot s = Slot.ofCaller none := hs
    obtain ⟨q, queue, hreg, -, -⟩ := (full_iff ho _).mp ht
    have ha := allocate?_of_nextFree ho.counter hp
    exact connect_of_full ho hs ht (route_of_fresh hreg ha)

/-! ### All causes of failure -/

theorem rejection_of_bind (ho : Owned n) (h : n.bind s a = some (.error e, n')) :
    n.Rejection (.bind s a) e := by
  by_cases hs : n.slot s = .fresh
  · obtain rfl := error_of_bind hs h
    have hk : ∃ key, n.Names a key := by
      refine exists_names ho.counter ?_
      intro ha
      rw [← allocate?_isSome_iff ho.counter]
      by_contra hn
      rw [Bool.not_eq_true, Option.isSome_eq_false_iff, Option.isNone_iff_eq_none] at hn
      unfold home at hn
      simp [bind, hs, choosePort, ha, hn] at h
    obtain ⟨key, hk⟩ := hk
    cases hf : n.registry.has key with
    | true => exact .taken hs hk hf
    | false => simp [bind_of_free hs hk ho.counter hf] at h
  · unfold bind at h
    split at h
    · rename_i hf
      exact absurd hf hs
    · cases h
      exact .alreadyBound hs

theorem rejection_of_listen {backlog : UInt32} (h : n.listen s backlog = some (.error e, n')) :
    n.Rejection (.listen s backlog) e := by
  unfold listen at h
  split at h
  · simp at h
  · rename_i hs
    cases h
    exact .notBound hs

theorem rejection_of_accept (ho : Owned n) (h : n.accept s = some (.error e, n')) :
    n.Rejection (.accept s) e := by
  cases hs : n.slot s with
  | listening own q =>
    obtain ⟨p, rest, -, hr, -⟩ := of_accept ho hs h
    simp at hr
  | fresh | bound _ | connected _ _ _ | closed =>
    simp only [accept, hs] at h
    cases h
    exact .notListening (by rw [hs]; rfl)

theorem rejection_of_connect (ho : Owned n) (h : n.connect s target = some (.error e, n')) :
    n.Rejection (.connect s target) e := by
  by_cases hs : ∃ bound, n.slot s = Slot.ofCaller bound
  · obtain ⟨bound, hs⟩ := hs
    obtain rfl := error_of_connect hs h
    by_cases ht : n.Unserved target.endpoint
    · exact .unserved hs ht
    rw [unserved_iff ho, ← ne_eq, Option.ne_none_iff_exists'] at ht
    obtain ⟨q, hreg⟩ := ht
    obtain ⟨t, own, hl, hown⟩ := ho.queue?_eq_some_iff.mp hreg
    obtain ⟨queue, hq, hopen⟩ := ho.open_queue hl
    rw [connect_eq_connectFrom hs, connectFrom] at h
    have hfull {own' : Descriptor} {m : Network}
        (hr : n.route bound target = some (.ok (q, own'), m)) : n.Full target.endpoint := by
      refine (full_iff ho _).mpr ⟨q, queue, hreg, hq, ?_⟩
      obtain ⟨-, hm, -⟩ := of_route hr
      have hmq : m.queues[q]? = some queue := by rw [hm, hq]
      cases htake : queue.takes with
      | true => simp [hr, enqueue, hmq, htake] at h
      | false => rfl
    cases bound with
    | some own' => exact .full hs (hfull (route_of_bound hreg own'))
    | none =>
      cases ha : allocate? n.registry n.cid n.counter with
      | none => simp [route, hreg, ha] at h
      | some x =>
        obtain ⟨port, next⟩ := x
        exact .turnedAway (.intro hs (hfull (route_of_fresh hreg ha)) (nextFree_of_allocate? ha).1)
  · have hs (bound : Option Descriptor) : n.slot s ≠ Slot.ofCaller bound :=
      fun hb => hs ⟨bound, hb⟩
    unfold connect at h
    split at h
    · rename_i hf
      exact absurd hf (hs none)
    · rename_i own hb
      exact absurd hb (hs (some own))
    · cases h
      exact .notCaller hs

theorem call_of_no_end (p : Transfer α) (hs : (n.slot s).end? = none) :
    n.call (p.request s) = some (.error (.plain .notConnected), n) := by
  cases hslot : n.slot s with
  | connected own c side => simp [hslot, Slot.end?] at hs
  | fresh | bound _ | listening _ _ | closed =>
    cases p <;> simp only [call, Transfer.request, send, recv, shutdown, hslot]

theorem rejection_of_transfer {p : Transfer α} (hw : Wired n)
    (h : n.call (p.request s) = some (.error e, n')) : n.Rejection (p.request s) e := by
  cases hs : (n.slot s).end? with
  | none =>
    rw [call_of_no_end p hs] at h
    cases h
    exact .notConnected p hs
  | some x =>
    obtain ⟨c, side⟩ := x
    have hl := hw.made _ (mem_ends_of_slot hs)
    obtain ⟨own, hslot⟩ := slot_of_end? hs
    cases p with
    | send data =>
      obtain ⟨rfl, hp⟩ := error_of_send hslot hl h
      exact .broken hs hp
    | recv room =>
      obtain ⟨bytes, hr, -⟩ := of_recv hslot hl h
      simp at hr
    | shutdown how => exact absurd h (not_error_of_shutdown hslot)

theorem rejection_of_localAddr (h : n.localAddr s = some (.error e, n')) :
    n.Rejection (.localAddr s) e := by
  unfold localAddr at h
  split at h
  all_goals cases h
  rename_i hs
  exact .noAddress hs

/-- Every failure has one of the causes. -/
theorem rejection_of_call {p : Request Nat α} (ho : Owned n) (hw : Wired n)
    (h : n.call p = some (.error e, n')) : n.Rejection p e := by
  cases p with
  | socket => simp [call, socket] at h
  | bind s a => exact rejection_of_bind ho h
  | listen s backlog => exact rejection_of_listen h
  | accept s => exact rejection_of_accept ho h
  | connect s target => exact rejection_of_connect ho h
  | send s data => exact rejection_of_transfer (p := .send data) hw h
  | recv s room => exact rejection_of_transfer (p := .recv room) hw h
  | shutdown s how => exact rejection_of_transfer (p := .shutdown how) hw h
  | localAddr s => exact rejection_of_localAddr h

/-- Every cause makes its request fail. -/
theorem call_of_rejection {p : Request Nat α} (ho : Owned n) (hw : Wired n)
    (h : n.Rejection p e) : ∃ n', n.call p = some (.error e, n') := by
  cases h with
  | taken hs hk ht => exact ⟨n, bind_of_taken hs hk ht⟩
  | alreadyBound hs => exact ⟨n, by simp only [call, bind]⟩
  | notBound hs => exact ⟨n, by simp only [call, listen]⟩
  | @notListening s hs =>
    refine ⟨n, ?_⟩
    simp only [call, accept]
    cases hslot : n.slot s with
    | listening own q => simp [hslot, Slot.queue?] at hs
    | fresh | bound _ | connected _ _ _ | closed => rfl
  | @notCaller s target hs =>
    refine ⟨n, ?_⟩
    simp only [call, connect]
    cases hslot : n.slot s with
    | fresh => exact absurd hslot (hs none)
    | bound own => exact absurd hslot (hs (some own))
    | listening _ _ | connected _ _ _ | closed => rfl
  | unserved hs ht => exact ⟨n, connect_of_unserved ho hs ht⟩
  | @full s own target hs ht =>
    have hs : n.slot s = Slot.ofCaller (some own) := hs
    obtain ⟨q, queue, hreg, -, -⟩ := (full_iff ho _).mp ht
    exact ⟨_, connect_of_full ho hs ht (route_of_bound hreg own)⟩
  | turnedAway h => exact ⟨_, call_of_turnedAway ho h⟩
  | notConnected p hs => exact ⟨n, call_of_no_end p hs⟩
  | broken hs hp =>
    obtain ⟨own, hslot⟩ := slot_of_end? hs
    exact ⟨n, send_of_closed hslot (hw.made _ (mem_ends_of_slot hs)) hp _⟩
  | noAddress hs => exact ⟨n, by simp only [call, localAddr, hs]⟩

/-- A failure changes nothing, unless a caller was turned away. -/
theorem eq_of_rejection {p : Request Nat α} (ho : Owned n) (h : n.call p = some (.error e, n'))
    (ht : ∀ port, ¬n.TurnedAway p port) : n' = n := by
  cases change_of_step (.call h) with
  | failed _ _ => rfl
  | @crowded s bound own target q m hs hr hq =>
    obtain ⟨hreg, -, ⟨rfl, rfl⟩ | ⟨rfl, port, ha, -, -⟩⟩ := of_route hr
    · rfl
    · obtain ⟨t, own', hl, -⟩ := ho.queue?_eq_some_iff.mp hreg
      obtain ⟨queue, hqueue, -⟩ := ho.open_queue hl
      have hfull := (full_iff ho _).mpr ⟨q, queue, hreg, hqueue, hq queue hqueue⟩
      exact absurd (.intro hs hfull (nextFree_of_allocate? ha).1) (ht port)

/-! ### The port counter -/

def withCounter (n : Network) (k : UInt32) : Network := { n with counter := k }

/-- A request in the course of which a port is handed out. -/
inductive Allocates (n : Network) : {α : Type} → Request Nat α → Prop where
  | bind {s : Nat} {a : Descriptor} (hs : n.slot s = .fresh) (ha : a.port = anyPort) :
      Allocates n (.bind s a)
  | connect {s : Nat} {target : Descriptor} (hs : n.slot s = .fresh)
      (ht : n.registry.queue? target.endpoint ≠ none) : Allocates n (.connect s target)

/-- A moment in which a port is handed out. -/
def Moment.Allocates : Moment → Prop
  | (n, .answered q _) => n.Allocates q
  | (_, .dropped _) => False

theorem enqueue_withCounter (n : Network) (k : UInt32) (q : Nat) (own target : Descriptor) :
    (n.withCounter k).enqueue q own target =
      (n.enqueue q own target).map fun x => (x.1, x.2.withCounter k) := by
  simp only [enqueue, withCounter]
  cases n.queues[q]? with
  | none => rfl
  | some queue =>
    dsimp only
    split <;> rfl

theorem connect_withCounter (k : UInt32) (h : ¬n.Allocates (.connect s target)) :
    (n.withCounter k).connect s target =
      (n.connect s target).map fun x => (x.1, x.2.withCounter k) := by
  have hslot : (n.withCounter k).slot s = n.slot s := rfl
  have hqueue : (n.withCounter k).registry.queue? target.endpoint =
      n.registry.queue? target.endpoint := rfl
  cases hs : n.slot s with
  | fresh =>
    have hq : n.registry.queue? target.endpoint = none := by
      by_contra hq
      exact h (.connect hs hq)
    simp only [connect, hslot, hs, connectFrom, route, hqueue, hq]
    rfl
  | bound own =>
    simp only [connect, hslot, hs, connectFrom, route, hqueue]
    cases n.registry.queue? target.endpoint with
    | none => rfl
    | some q =>
      simp only [enqueue_withCounter]
      cases n.enqueue q own target <;> rfl
  | listening _ _ | connected _ _ _ | closed =>
    simp only [connect, hslot, hs]
    rfl

theorem bind_withCounter (k : UInt32) (h : ¬n.Allocates (.bind s a)) :
    (n.withCounter k).bind s a = (n.bind s a).map fun x => (x.1, x.2.withCounter k) := by
  have hslot : (n.withCounter k).slot s = n.slot s := rfl
  cases hs : n.slot s with
  | fresh =>
    have ha : a.port ≠ anyPort := fun ha => h (.bind hs ha)
    simp only [bind, hslot, hs, choosePort, if_neg ha]
    have hreg : (n.withCounter k).registry = n.registry := rfl
    have hcid : (n.withCounter k).cid = n.cid := rfl
    rw [hreg, hcid]
    generalize (if a.cid = anyCid then n.cid else a.cid) = cid
    cases n.registry.has ⟨cid, a.port⟩ <;> rfl
  | bound _ | listening _ _ | connected _ _ _ | closed =>
    simp only [bind, hslot, hs]
    rfl

theorem accept_withCounter (n : Network) (k : UInt32) (s : Nat) :
    (n.withCounter k).accept s = (n.accept s).map fun x => (x.1, x.2.withCounter k) := by
  have hslot : (n.withCounter k).slot s = n.slot s := rfl
  cases hs : n.slot s with
  | listening own q =>
    have hqueues : (n.withCounter k).queues = n.queues := rfl
    simp only [accept, hslot, hs, dequeue, hqueues]
    cases n.queues[q]? with
    | none => rfl
    | some queue =>
      cases queue with
      | mk pending backlog closed => cases pending <;> cases closed <;> rfl
  | fresh | bound _ | connected _ _ _ | closed =>
    simp only [accept, hslot, hs]
    rfl

theorem transfer_withCounter (n : Network) (k : UInt32) (s : Nat) (p : Transfer α) (hw : Wired n) :
    (n.withCounter k).call (p.request s) =
      (n.call (p.request s)).map fun x => (x.1, x.2.withCounter k) := by
  have hslot : (n.withCounter k).slot s = n.slot s := rfl
  cases hs : (n.slot s).end? with
  | none =>
    rw [call_of_no_end p hs, call_of_no_end p (hslot ▸ hs)]
    rfl
  | some x =>
    obtain ⟨c, side⟩ := x
    obtain ⟨conn, hc⟩ := hw.exists_connection hs
    rw [call_transfer hs hc, call_transfer (n := n.withCounter k) (hslot ▸ hs) hc, Option.map_map]
    rfl

/-- Where the port counter stands matters to those who are handed a port, and to nobody else. -/
theorem call_withCounter {p : Request Nat α} (hw : Wired n) (k : UInt32) (h : ¬n.Allocates p) :
    (n.withCounter k).call p = (n.call p).map fun x => (x.1, x.2.withCounter k) := by
  cases p with
  | socket => rfl
  | bind s a => exact bind_withCounter k h
  | listen s backlog =>
    have hslot : (n.withCounter k).slot s = n.slot s := rfl
    simp only [call, listen, hslot]
    cases n.slot s <;> rfl
  | accept s => exact accept_withCounter n k s
  | connect s target => exact connect_withCounter k h
  | send s data => exact transfer_withCounter n k s (.send data) hw
  | recv s room => exact transfer_withCounter n k s (.recv room) hw
  | shutdown s how => exact transfer_withCounter n k s (.shutdown how) hw
  | localAddr s =>
    have hslot : (n.withCounter k).slot s = n.slot s := rfl
    simp only [call, localAddr, hslot]
    cases n.slot s <;> rfl

theorem drop_withCounter (n : Network) (k : UInt32) (s : Nat) :
    (n.withCounter k).drop s = (n.drop s).withCounter k := by
  rw [drop_eq, drop_eq]
  rfl

/-- A run in which nobody is handed a port is a run from every other port counter. -/
theorem run_withCounter {tr : List Moment} (hw : Wired n) (k : UInt32) (h : Run n tr m)
    (ha : ∀ x ∈ tr, ¬x.Allocates) :
    Run (n.withCounter k) (tr.map fun x => (x.1.withCounter k, x.2)) (m.withCounter k) := by
  induction h with
  | nil => exact .nil
  | @snoc tr j j' e h hs ih =>
    rw [List.map_append]
    refine (ih fun x hx => ha x (List.mem_append_left _ hx)).snoc ?_
    have ha := ha (j, e) (List.mem_append_right _ (List.mem_singleton_self _))
    cases hs with
    | drop s => exact drop_withCounter j k s ▸ .drop s
    | call hc =>
      refine .call ?_
      rw [call_withCounter (wired_of_run h hw) k ha, hc]
      rfl

/-- A wildcard port is found, whichever it is, unless all are in use. -/
theorem answer_of_bind (hs : n.slot s = .fresh) (ha : a.port = anyPort) :
    (n.bind s a).map Prod.fst =
      (allocate? n.registry (n.home a) n.counter).map fun _ => .ok () := by
  unfold home
  simp only [bind, hs, choosePort, if_pos ha]
  generalize (if a.cid = anyCid then n.cid else a.cid) = cid
  cases hx : allocate? n.registry cid n.counter with
  | none => rfl
  | some x =>
    obtain ⟨port, next⟩ := x
    have hf := (nextFree_of_allocate? hx).1.free
    simp [hf]

/-- A caller that is not bound is answered as its queue is, unless all ports are in use. -/
theorem answer_of_connect (hs : n.slot s = .fresh)
    (hq : n.registry.queue? target.endpoint = some q) :
    (n.connect s target).map Prod.fst =
      (allocate? n.registry n.cid n.counter).map fun _ =>
        if n.queues[q]?.any Queue.takes then .ok () else .error (.plain .connectionRefused) := by
  simp only [connect, hs, connectFrom, route, hq]
  cases allocate? n.registry n.cid n.counter with
  | none => rfl
  | some x =>
    obtain ⟨port, next⟩ := x
    simp only [enqueue]
    cases n.queues[q]? with
    | none => rfl
    | some queue => cases ht : queue.takes <;> simp [ht]

/-- No answer tells where the port counter stands. -/
theorem answer_withCounter (hw : Wired n) (hn : HandedOut n.counter) (hk : HandedOut k)
    (p : Request Nat α) :
    ((n.withCounter k).call p).map Prod.fst = (n.call p).map Prod.fst := by
  have hmap {β : Type} {x : Option (UInt32 × UInt32)} {y : Option (UInt32 × UInt32)} (b : β)
      (h : x.isSome ↔ y.isSome) : x.map (fun _ => b) = y.map fun _ => b := by
    cases x <;> cases y <;> simp_all
  have hall (cid : UInt32) : (allocate? n.registry cid k).isSome ↔
      (allocate? n.registry cid n.counter).isSome :=
    (allocate?_isSome_iff hk).trans (allocate?_isSome_iff hn).symm
  by_cases h : n.Allocates p
  · cases h with
    | @bind s a hs ha =>
      exact (answer_of_bind (n := n.withCounter k) hs ha).trans
        ((hmap _ (hall (n.home a))).trans (answer_of_bind hs ha).symm)
    | @connect s target hs ht =>
      obtain ⟨q, hq⟩ := Option.ne_none_iff_exists'.mp ht
      exact (answer_of_connect (n := n.withCounter k) hs hq).trans
        ((hmap _ (hall n.cid)).trans (answer_of_connect hs hq).symm)
  · rw [call_withCounter hw k h, Option.map_map]
    rfl

/-- A request fails for one of a few causes, and always for those. The sockets, the registry, the
queues and the connections are then as before, and so is the port counter, unless a caller that was
not bound is turned away from a full queue: then the counter is past the one port that it was given.
Until somebody is handed a port things go on as if the request had not been made, and every answer
is the same. -/
theorem failed_of_run {cid : UInt32} {tr : List Moment} (h : Run (ofCid cid) tr n)
    (p : Request Nat α) (e : IoError) :
    ((∃ n', n.call p = some (.error e, n')) ↔ n.Rejection p e) ∧
    ∀ n', n.call p = some (.error e, n') →
      (n'.cid = n.cid ∧ n'.slots = n.slots ∧ n'.registry = n.registry ∧ n'.queues = n.queues ∧
        n'.connections = n.connections) ∧
      ((∀ port, ¬n.TurnedAway p port) → n'.counter = n.counter) ∧
      (∀ port, n.TurnedAway p port → n'.counter = nextPort port) ∧
      ∀ tr' m, Run n tr' m → (∀ x ∈ tr', ¬x.Allocates) →
        Run n' (tr'.map fun x => (x.1.withCounter n'.counter, x.2)) (m.withCounter n'.counter) ∧
        ∀ β (p' : Request Nat β),
          ((m.withCounter n'.counter).call p').map Prod.fst = (m.call p').map Prod.fst := by
  have ho := owned_of_run h (owned_ofCid cid)
  have hw := wired_of_run h (wired_ofCid cid)
  refine ⟨⟨fun ⟨n', hc⟩ => rejection_of_call ho hw hc, call_of_rejection ho hw⟩, ?_⟩
  intro n' hc
  have hn' : n' = n.withCounter n'.counter := by
    by_cases ht : ∃ port, n.TurnedAway p port
    · obtain ⟨port, ht⟩ := ht
      rw [call_of_turnedAway ho ht] at hc
      cases hc
      rfl
    · rw [eq_of_rejection ho hc fun port hp => ht ⟨port, hp⟩]
      rfl
  have hcounter := (owned_of_run (h.snoc (.call hc)) (owned_ofCid cid)).counter
  refine ⟨?_, ?_, ?_, ?_⟩
  · rw [hn']
    exact ⟨rfl, rfl, rfl, rfl, rfl⟩
  · intro ht
    rw [eq_of_rejection ho hc ht]
  · intro port ht
    rw [call_of_turnedAway ho ht] at hc
    cases hc
    rfl
  · intro tr' m hr ha
    have hrun := run_withCounter hw n'.counter hr ha
    rw [← hn'] at hrun
    refine ⟨hrun, fun β p' => ?_⟩
    exact answer_withCounter (wired_of_run hr hw) (owned_of_run hr ho).counter hcounter p'

/-- A listener with room for one, which is taken. A second caller is refused: the counter is past
the port that it was given, and all else is as it was. -/
theorem failed_of_crowded_run :
    ∃ tr n n', Run (ofCid 3) tr n ∧ n.counter = 40001 ∧
      n.call (.connect 2 (Descriptor.remote 3 1234)) =
        some (.error (.plain .connectionRefused), n') ∧
      n'.counter = 40002 ∧ n'.slots = n.slots ∧ n'.registry = n.registry ∧
      n'.queues = n.queues ∧ n'.connections = n.connections := by
  have h := Run.nil (n := ofCid 3)
    |>.snoc (.call (q := .socket) rfl)
    |>.snoc (.call (q := .bind 0 (Descriptor.bind 3 1234)) rfl)
    |>.snoc (.call (q := .listen 0 1) rfl)
    |>.snoc (.call (q := .socket) rfl)
    |>.snoc (.call (q := .connect 1 (Descriptor.remote 3 1234)) rfl)
    |>.snoc (.call (q := .socket) rfl)
  obtain ⟨tr, n, h, hcounter, haway⟩ : ∃ tr n, Run (ofCid 3) tr n ∧ n.counter = 40001 ∧
      n.TurnedAway (.connect 2 (Descriptor.remote 3 1234)) 40001 :=
    ⟨_, _, h, rfl, .intro rfl ⟨0, _, 0, _, rfl, rfl, rfl, Nat.le_refl _⟩
      ⟨rfl, 0, rfl, fun j hj => absurd hj (Nat.not_lt_zero j)⟩⟩
  obtain ⟨hiff, hframe⟩ := failed_of_run h (.connect 2 (Descriptor.remote 3 1234))
    (.plain .connectionRefused)
  obtain ⟨n', hc⟩ := hiff.mpr (.turnedAway haway)
  obtain ⟨⟨-, hslots, hreg, hqueues, hconns⟩, -, hnext, -⟩ := hframe n' hc
  exact ⟨tr, n, n', h, hcounter, hc, hnext _ haway, hslots, hreg, hqueues, hconns⟩

end Handoff.Loopback.Network
