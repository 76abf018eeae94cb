import Handoff.Proofs.Exchange.Caller
import Handoff.Proofs.Loopback.Hangup
import Handoff.Proofs.Loopback.Refusals

/-!
The whole run of a client over a network. It delivers if a listener at its target has room, and is
refused otherwise. Either way it leaves no endpoint behind, and what it has delivered can be read to
the end after it has gone. The main statement is `delivered_of_run`.
-/
namespace Handoff

open Loopback (Network Slot Side Queue Connection Transfer NextFree HandedOut Registry)
open Loopback.Network

namespace Loopback.Network

variable {n m : Network} {tr : List Moment} {cid b : UInt32} {s t q c : Nat} {own : Descriptor}
  {e : Endpoint} {side : Side}

/-! ### Room at a listener -/

/-- A socket listens on an endpoint, and fewer wait for it than it was told to let wait, but for
one at least. -/
def Room (tr : List Moment) (n : Network) (e : Endpoint) (q : Nat) : Prop :=
  ∃ s own m b, n.slot s = .listening own q ∧ own.endpoint = e ∧
    (m, .answered (.listen s b) (.ok ())) ∈ tr ∧ (n.waitingIn q).length < max 1 b.toNat

theorem exists_listen (h : Run (ofCid cid) tr n) (hl : n.slot s = .listening own q) :
    ∃ m b, (m, .answered (.listen s b) (.ok ())) ∈ tr := by
  induction h with
  | nil => simp [slot, ofCid] at hl
  | @snoc tr k k' e h hs ih =>
    by_cases hbefore : k.slot s = .listening own q
    · obtain ⟨m, b, hm⟩ := ih hbefore
      exact ⟨m, b, List.mem_append_left _ hm⟩
    have hset {i : Nat} {t t' : Slot} (hk : k'.slots = k.slots.set i t') (hi : k.slot i = t)
        (ht : t ≠ .closed) : s = i ∧ t' = .listening own q := by
      rw [slot_of_slots_set hk (lt_of_slot hi ht)] at hl
      split at hl
      · exact ⟨‹_›, hl⟩
      · exact absurd hl hbefore
    have happend {t : Slot} (hk : k'.slots = k.slots ++ [t]) : t = .listening own q := by
      rw [slot_of_slots_append hk] at hl
      split at hl
      · exact hl
      · exact absurd hl hbefore
    cases change_of_step hs with
    | failed | told | crowded | sent | received | shut => exact absurd hl hbefore
    | made => exact absurd (happend rfl) (by simp)
    | accepted => exact absurd (happend rfl) (by simp)
    | bound hi => exact absurd (hset rfl hi (by simp)).2 (by simp)
    | connected hi => exact absurd (hset rfl hi (Slot.ofCaller_ne_closed _)).2 (by simp)
    | @listening i own' b hi =>
      obtain ⟨rfl, -⟩ := hset rfl hi (by simp)
      exact ⟨k, b, List.mem_append_right _ (List.mem_singleton_self _)⟩
    | dropped i =>
      rw [slot_drop] at hl
      split at hl
      · simp at hl
      · exact absurd hl hbefore

theorem places_of_listen (h : Run (ofCid cid) tr n) (hl : n.slot s = .listening own q)
    (hb : (m, .answered (.listen s b) (.ok ())) ∈ tr) : Places n q (max 1 b.toNat) := by
  obtain ⟨tr₁, m', tr₂, -, -, hstep, -⟩ := h.of_mem hb
  have ha : m.listen s b = some (.ok (), m') := hstep.answer
  unfold listen at ha
  split at ha
  · rename_i own' hs
    rcases serving_of_run h hs hb with ⟨q', hserve⟩ | hserved
    · have heq := hserve.listening
      rw [hl] at heq
      cases heq
      exact hserve.places
    · rw [hserved.closed] at hl
      simp at hl
  · simp at ha

/-- Where there is room, there is a queue that takes one more. -/
theorem Room.takes (hr : Room tr n e q) (h : Run (ofCid cid) tr n) :
    n.registry.queue? e = some q ∧ ∃ queue, n.queues[q]? = some queue ∧ queue.takes = true := by
  obtain ⟨s, own, m, b, hl, rfl, hb, hroom⟩ := hr
  have ho := owned_of_run h (owned_ofCid cid)
  obtain ⟨queue, hq, hplaces, -⟩ := places_of_listen h hl hb
  obtain ⟨queue', hq', hopen⟩ := ho.open_queue hl
  cases hq.symm.trans hq'
  rw [waitingIn_of_getElem? hq, ← hplaces] at hroom
  refine ⟨ho.queue?_eq_some_iff.mpr ⟨s, own, hl, rfl⟩, queue, hq, ?_⟩
  simp [Queue.takes, hopen, hroom]

/-- Where there is none, nobody listens or the queue is full. -/
theorem unserved_or_full (h : Run (ofCid cid) tr n) (hr : ∀ q, ¬Room tr n e q) :
    n.Unserved e ∨ n.Full e := by
  by_cases hu : n.Unserved e
  · exact .inl hu
  · simp only [Unserved, not_forall, not_not] at hu
    obtain ⟨s, own, q, hl, rfl⟩ := hu
    obtain ⟨m, b, hb⟩ := exists_listen h hl
    obtain ⟨queue, hq, hplaces, -⟩ := places_of_listen h hl hb
    refine .inr ⟨s, own, q, queue, hl, rfl, hq, ?_⟩
    by_contra hlt
    refine hr q ⟨s, own, m, b, hl, rfl, hb, ?_⟩
    rw [waitingIn_of_getElem? hq, ← hplaces]
    exact Nat.lt_of_not_le hlt

/-! ### What is left to be read -/

/-- What a pipe held when its writing side was closed comes out of it, and then no more. -/
theorem recv_of_left (hw : Wired n) (h : Run n tr m) (hc : (n.pipe c side).writeClosed = true)
    (ho : (n.pipe c side).readClosed = false) (ht : (m.slot t).end? = some (c, side))
    (hr : tr.any (Moment.stopsReading c side) = false) :
    ∃ rest, tr.flatMap (Moment.receivedAt c side) ++ rest = (n.pipe c side).buffer ∧
      ∀ room, ∃ m', m.recv t room = some (.ok (rest.take room), m') := by
  have hstart : Pipe.Flow (n.pipe c side).buffer [] false true (n.pipe c side) :=
    ⟨List.nil_prefix, fun _ => rfl, by simp, ho, hc⟩
  obtain ⟨hsent, hclosed⟩ := sent_of_closed hw h hc
  have hflow := flow_after hw hstart h
  rw [hsent, hr, List.append_nil, List.nil_append] at hflow
  obtain ⟨own, hs⟩ := slot_of_end? ht
  have hl := (wired_of_run h hw).made _ (mem_ends_of_slot ht)
  exact ⟨(m.pipe c side).buffer, hflow.kept rfl, recv_of_closed hs hl hclosed⟩

/-- Nothing can be sent to an end that has been given up. -/
theorem send_of_left (hw : Wired n) (h : Run n tr m) (hp : (n.pipe c side.other).Spent)
    (ht : (m.slot t).end? = some (c, side)) (data : List UInt8) :
    m.send t data = some (.error (.plain .brokenPipe), m) := by
  obtain ⟨own, hs⟩ := slot_of_end? ht
  have hl := (wired_of_run h hw).made _ (mem_ends_of_slot ht)
  exact send_of_spent hs hl (spent_of_run hw h hp) data

end Loopback.Network

namespace Client

variable {n m : Network} {c : Config} {port : UInt32} {q : Nat} {queue : Queue}
  {conn conn' : Connection} {e : IoError}

/-! ### The steps of a run -/

theorem advance_of_step {p p' : Delivery Nat} (h : p.step Network.transport c n = some (p', m)) :
    p.advance Network.transport c n = p'.advance Network.transport c m := by
  rw [Delivery.advance_eq, h]

theorem advance_done (o : Except Failure SendReport) :
    (Delivery.leaving [] o).advance Network.transport c n = (.leaving [] o, n) := by
  rw [Delivery.advance_eq]
  rfl

/-- The steps of a client make up a run of the network. -/
theorem exists_run_of_advance {p : Delivery Nat} (hw : n.Wired) (hp : p.Fits c n) :
    ∃ tr, Network.Run n tr (p.advance Network.transport c n).2 := by
  fun_induction Delivery.advance Network.transport c p n with
  | case1 p n h => exact ⟨[], .nil⟩
  | case2 p n p' n' h _ ih =>
    obtain ⟨e, ht, hs⟩ := Delivery.turn_of_step hp.staged h
    obtain ⟨tr, hr⟩ := ih (hw.step (change_of_step hs)) (hp.turn hw ht hs)
    exact ⟨_, (Network.Run.nil.snoc hs).trans hr⟩

theorem exists_run {o : Except Failure SendReport} (hw : n.Wired)
    (h : run Network.transport c n = some (o, m)) : ∃ tr, Network.Run n tr m := by
  obtain ⟨tr, hr⟩ := exists_run_of_advance (c := c) (p := .opening) hw trivial
  unfold run at h
  obtain ⟨o', -, he⟩ := Option.map_eq_some_iff.mp h
  cases he
  exact ⟨tr, hr⟩

def Config.filled (c : Config) : Connection := ⟨⟨c.payload, false, false⟩, .empty⟩

def Config.pending (c : Config) (n : Network) (port : UInt32) : Loopback.Pending where
  own := Descriptor.local c.remote.cid c.remote.port
  peer := Descriptor.peer n.cid port
  connection := n.connections.length

/-- A network with a client that has connected, and what its connection has become. -/
def Config.during (c : Config) (n : Network) (port : UInt32) (q : Nat) (queue : Queue)
    (conn : Connection) : Network :=
  { n with
    counter := Loopback.nextPort port
    registry := n.registry.put ⟨n.cid, port⟩ none
    queues := n.queues.set q (queue.push (c.pending n port))
    connections := n.connections ++ [conn]
    slots := n.slots ++
      [.connected (Descriptor.local n.cid port) n.connections.length .caller] }

/-- A network that a client has left. -/
def Config.after (c : Config) (n : Network) (port : UInt32) (q : Nat) (queue : Queue)
    (conn : Connection) : Network :=
  { n with
    counter := Loopback.nextPort port
    queues := n.queues.set q (queue.push (c.pending n port))
    connections := n.connections ++ [conn.shut .caller .both]
    slots := n.slots ++ [.closed] }

theorem slot_during (c : Config) (n : Network) (port : UInt32) (q : Nat) (queue : Queue)
    (conn : Connection) :
    (c.during n port q queue conn).slot n.slots.length =
      .connected (Descriptor.local n.cid port) n.connections.length .caller := by
  rw [slot_of_slots_append (n := n) rfl, if_pos rfl]

/-- What a connected client asks at its end. -/
theorem call_during {α : Type} {r : Except IoError α} (c : Config) (n : Network) (port : UInt32)
    (q : Nat) (queue : Queue) (p : Transfer α)
    (h : conn.answer .caller p = some (r, conn')) :
    (c.during n port q queue conn).call (p.request n.slots.length) =
      some (r, c.during n port q queue conn') := by
  have hc : (c.during n port q queue conn).connections[n.connections.length]? = some conn :=
    List.getElem?_concat_length
  rw [call_transfer (end?_of_slot (slot_during c n port q queue conn)) hc, h, Option.map_some]
  simp only [setConnection, Config.during, Loopback.set_append_length]

/-- A client that is given up returns its endpoint and shuts its end down. -/
theorem drop_during (hf : n.registry.has ⟨n.cid, port⟩ = false) :
    (c.during n port q queue conn).drop n.slots.length = c.after n port q queue conn := by
  have herase : (n.registry.put ⟨n.cid, port⟩ none).erase
      (Descriptor.local n.cid port).endpoint = n.registry := Registry.erase_put hf none
  rw [drop_eq, slot_during]
  simp only [severed, Slot.holding?, Slot.queue?, Config.during, Config.after,
    Loopback.set_append_length, herase]
  rw [List.modify_eq_set_getElem?, List.getElem?_concat_length]
  simp only [Option.map_eq_map, Option.map_some, Option.getD_some, Loopback.set_append_length]

theorem connect_made (hc : HandedOut n.counter) (hp : NextFree n.registry n.cid n.counter port)
    (hreg : n.registry.queue? c.remote.endpoint = some q) (hq : n.queues[q]? = some queue)
    (ht : queue.takes = true) :
    n.made.connect n.slots.length c.remote =
      some (.ok (), c.during n port q queue .fresh) := by
  have hs : n.made.slot n.slots.length = Slot.ofCaller none := slot_made n
  have ha := Loopback.allocate?_of_nextFree hc hp
  have hroute := route_of_fresh (n := n.made) hreg ha
  rw [connect_eq_connectFrom hs, connectFrom, hroute]
  dsimp only
  rw [enqueue_of_takes (by exact hq) ht]
  simp only [setSlot, made, Loopback.set_append_length]
  rfl

/-- A client that is let in sends its payload, all of it. -/
theorem advance_opening (hc : HandedOut n.counter)
    (hp : NextFree n.registry n.cid n.counter port)
    (hreg : n.registry.queue? c.remote.endpoint = some q) (hq : n.queues[q]? = some queue)
    (ht : queue.takes = true) :
    Delivery.opening.advance Network.transport c n =
      (Delivery.afterSend c (Delivery.joined c n.slots.length) (some (Descriptor.local n.cid port))
        c.payload.length).advance Network.transport c (c.during n port q queue c.filled) := by
  have haddr := localAddr_of_own? (n := c.during n port q queue .fresh) (s := n.slots.length)
    (d := Descriptor.local n.cid port) (by rw [slot_during]; rfl)
  have hsend : (c.during n port q queue .fresh).send n.slots.length c.payload =
      some (.ok c.payload.length, c.during n port q queue c.filled) :=
    call_during c n port q queue (.send c.payload) rfl
  have h₁ : (Delivery.connecting (Delivery.caller n.slots.length)).step Network.transport c n.made =
      some (.locating (Delivery.joined c n.slots.length), c.during n port q queue .fresh) := by
    rw [Delivery.step_connecting, connect_made hc hp hreg hq ht]
  have h₂ := Delivery.step_locating (c := c) (n := c.during n port q queue .fresh) n.slots.length
  rw [haddr] at h₂
  have h₃ := Delivery.step_sending (c := c) (n := c.during n port q queue .fresh) n.slots.length
    (some (Descriptor.local n.cid port))
  rw [hsend] at h₃
  rw [advance_of_step Delivery.step_opening]
  exact (advance_of_step h₁).trans ((advance_of_step h₂).trans (advance_of_step h₃))

theorem advance_leaving (hf : n.registry.has ⟨n.cid, port⟩ = false)
    (o : Except Failure SendReport) (conn : Connection) :
    (Delivery.leaving [n.slots.length] o).advance Network.transport c
      (c.during n port q queue conn) = (.leaving [] o, c.after n port q queue conn) := by
  rw [advance_of_step (Delivery.step_leaving _ _ _), drop_during hf, advance_done]

/-- A client that is let in delivers its payload, unless it has none. -/
theorem run_of_takes (hc : HandedOut n.counter) (hp : NextFree n.registry n.cid n.counter port)
    (hreg : n.registry.queue? c.remote.endpoint = some q) (hq : n.queues[q]? = some queue)
    (ht : queue.takes = true) :
    run Network.transport c n =
      some (if c.payload = [] then .error (.nothingSent c.remote)
          else .ok ⟨some (Descriptor.local n.cid port), c.remote, c.payload.length⟩,
        c.after n port q queue c.filled) := by
  unfold run
  rw [advance_opening hc hp hreg hq ht, Delivery.afterSend]
  by_cases hempty : c.payload = []
  · rw [if_pos (List.length_eq_zero_iff.mpr hempty), if_pos hempty]
    exact congrArg (fun x => x.1.outcome?.map fun o => (o, x.2)) (advance_leaving hp.free _ _)
  · rw [if_neg (mt List.length_eq_zero_iff.mp hempty), if_neg (Nat.lt_irrefl _), if_neg hempty]
    have hshut : (c.during n port q queue c.filled).shutdown n.slots.length .both =
        some (.ok (), c.during n port q queue (c.filled.shut .caller .both)) :=
      call_during c n port q queue (.shutdown .both) rfl
    have h₄ := Delivery.step_closing (c := c) (n := c.during n port q queue c.filled)
      n.slots.length (some (Descriptor.local n.cid port)) c.payload.length
    rw [hshut] at h₄
    -- giving up shuts down once more what is shut down already
    exact congrArg (fun x => x.1.outcome?.map fun o => (o, x.2))
      ((advance_of_step h₄).trans (advance_leaving hp.free _ _))

theorem run_of_refused {k : UInt32}
    (h : n.made.connect n.slots.length c.remote = some (.error e, n.made.withCounter k)) :
    run Network.transport c n = some (.error (.connect c.remote e),
      { n with counter := k, slots := n.slots ++ [.closed] }) := by
  have h₁ : (Delivery.connecting (Delivery.caller n.slots.length)).step Network.transport c n.made =
      some (.leaving [n.slots.length] (.error (.connect c.remote e)), n.made.withCounter k) := by
    rw [Delivery.step_connecting, h]
  have hdrop : (n.made.withCounter k).drop n.slots.length =
      { n with counter := k, slots := n.slots ++ [.closed] } := by
    rw [drop_withCounter, drop_made]
    rfl
  have hrun : Delivery.opening.advance Network.transport c n = (.leaving []
      (.error (.connect c.remote e)), { n with counter := k, slots := n.slots ++ [.closed] }) := by
    rw [advance_of_step Delivery.step_opening]
    refine (advance_of_step h₁).trans ?_
    rw [advance_of_step (Delivery.step_leaving _ _ _), hdrop, advance_done]
  rw [run, hrun]
  rfl

theorem connect_made_refused (ho : n.Owned) (hp : NextFree n.registry n.cid n.counter port)
    (hr : n.Unserved c.remote.endpoint ∨ n.Full c.remote.endpoint) :
    ∃ k, n.made.connect n.slots.length c.remote =
      some (.error (.plain .connectionRefused), n.made.withCounter k) := by
  have hs : n.made.slot n.slots.length = Slot.ofCaller none := slot_made n
  have hmade : n.made.Owned := ho.step .made
  rcases hr with hu | hfull
  · have hu := (unserved_iff hmade _).mpr ((unserved_iff ho _).mp hu)
    exact ⟨n.counter, connect_of_unserved hmade hs hu⟩
  · obtain ⟨q, queue, hreg, hq, ht⟩ := (full_iff ho _).mp hfull
    have hfull := (full_iff hmade _).mpr ⟨q, queue, hreg, hq, ht⟩
    have ha := Loopback.allocate?_of_nextFree ho.counter hp
    exact ⟨_, connect_of_full hmade hs hfull (route_of_fresh (n := n.made) hreg ha)⟩

theorem read_after {tr : List Moment} {t : Nat} (hw : (c.after n port q queue c.filled).Wired)
    (h : Network.Run (c.after n port q queue c.filled) tr m)
    (ht : (m.slot t).end? = some (n.connections.length, .callee)) :
    (∀ data, m.send t data = some (.error (.plain .brokenPipe), m)) ∧
    (tr.any (Moment.stopsReading n.connections.length .callee) = false →
      ∃ rest, tr.flatMap (Moment.receivedAt n.connections.length .callee) ++ rest = c.payload ∧
        ∀ room, ∃ m', m.recv t room = some (.ok (rest.take room), m')) := by
  have hconn : (c.after n port q queue c.filled).connection n.connections.length =
      ⟨⟨c.payload, true, false⟩, ⟨[], false, true⟩⟩ :=
    connection_of_getElem? List.getElem?_concat_length
  have hpipe : (c.after n port q queue c.filled).pipe n.connections.length .callee =
      ⟨c.payload, true, false⟩ := by
    rw [pipe, hconn]
    rfl
  have hback : (c.after n port q queue c.filled).pipe n.connections.length .caller =
      ⟨[], false, true⟩ := by
    rw [pipe, hconn]
    rfl
  constructor
  · have hspent : ((c.after n port q queue c.filled).pipe n.connections.length
        Side.callee.other).Spent := hback ▸ ⟨rfl, .inr rfl⟩
    exact send_of_left hw h hspent ht
  · intro hr
    have hrecv := recv_of_left hw h (by rw [hpipe]) (by rw [hpipe]) ht hr
    rwa [hpipe] at hrecv

/-- What a client has left at the end of the queue of its target, once it has gone: what it has sent
can be read there to the end, and nothing can be sent back. -/
structure Awaits (c : Config) (n n' : Network) (q : Nat) (port : UInt32)
    (p : Loopback.Pending) (o : Except Failure SendReport) : Prop where
  free : NextFree n.registry n.cid n.counter port
  outcome : o = (if c.payload = [] then .error (.nothingSent c.remote)
    else .ok ⟨some (Descriptor.local n.cid port), c.remote, c.payload.length⟩)
  queues : n'.queues = n.queues.modify q (·.push p)
  waiting : n'.waitingIn q = n.waitingIn q ++ [p]
  connections : n.connections <+: n'.connections
  own : p.own = Descriptor.local c.remote.cid c.remote.port
  peer : p.peer = Descriptor.peer n.cid port
  connection : p.connection = n.connections.length
  silent : ∀ tr' m t, Network.Run n' tr' m → (m.slot t).end? = some (p.connection, .callee) →
    ∀ data, m.send t data = some (.error (.plain .brokenPipe), m)
  readable : ∀ tr' m t, Network.Run n' tr' m → (m.slot t).end? = some (p.connection, .callee) →
    tr'.any (Moment.stopsReading p.connection .callee) = false →
    ∃ rest, tr'.flatMap (Moment.receivedAt p.connection .callee) ++ rest = c.payload ∧
      ∀ room, ∃ m', m.recv t room = some (.ok (rest.take room), m')

/-- How a client ends that has found room at its target, or none. It leaves no endpoint behind. -/
structure Delivered (tr : List Moment) (c : Config) (n n' : Network)
    (o : Except Failure SendReport) : Prop where
  reached : ∃ tr', Network.Run n tr' n'
  registry : n'.registry = n.registry
  slots : n'.slots = n.slots ++ [.closed]
  ok : (∃ r, o = .ok r) ↔ (∃ q, Room tr n c.remote.endpoint q) ∧ c.payload ≠ []
  room : ∀ q, Room tr n c.remote.endpoint q → ∃ port p, Awaits c n n' q port p o
  refused : (∀ q, ¬Room tr n c.remote.endpoint q) →
    o = .error (.connect c.remote (.plain .connectionRefused)) ∧ n'.queues = n.queues ∧
    n'.connections = n.connections

/-- A client over a network delivers exactly when there is room for it at its target and it has
something to deliver; it is refused exactly when there is no room. -/
theorem delivered_of_run {cid : UInt32} {tr : List Moment} (h : Network.Run (.ofCid cid) tr n)
    (c : Config) (hfree : ∃ p, HandedOut p ∧ n.registry.has ⟨n.cid, p⟩ = false) :
    ∃ o n', run Network.transport c n = some (o, n') ∧ Delivered tr c n n' o := by
  have ho := owned_of_run h (owned_ofCid cid)
  have hw := wired_of_run h (wired_ofCid cid)
  obtain ⟨p, hhanded, hnot⟩ := hfree
  obtain ⟨port, hp⟩ := Loopback.exists_nextFree ho.counter hhanded hnot
  by_cases hroom : ∃ q, Room tr n c.remote.endpoint q
  · obtain ⟨q, hq⟩ := hroom
    obtain ⟨hreg, queue, hqueue, ht⟩ := hq.takes h
    have hrun := run_of_takes ho.counter hp hreg hqueue ht
    obtain ⟨tr', hr'⟩ := exists_run hw hrun
    refine ⟨_, _, hrun, ⟨tr', hr'⟩, rfl, rfl, ?_, ?_, ?_⟩
    · by_cases hempty : c.payload = []
      · simp [hempty]
      · have hsome : ∃ q, Room tr n c.remote.endpoint q := ⟨q, hq⟩
        simp [hempty, hsome]
    · intro q' hq'
      cases hreg.symm.trans (hq'.takes h).1
      refine ⟨port, c.pending n port, hp, rfl, ?_, ?_, List.prefix_append _ _, rfl, rfl, rfl,
        ?_, ?_⟩
      · rw [List.modify_eq_set_getElem?, hqueue]
        rfl
      · have hl := (List.getElem?_eq_some_iff.mp hqueue).1
        have hset : (c.after n port q queue c.filled).queues[q]? =
            some (queue.push (c.pending n port)) := List.getElem?_set_self hl
        rw [waitingIn_of_getElem? hqueue, waitingIn_of_getElem? hset]
        rfl
      · intro tr'' m t hr'' ht'
        exact (read_after (wired_of_run hr' hw) hr'' ht').1
      · intro tr'' m t hr'' ht'
        exact (read_after (wired_of_run hr' hw) hr'' ht').2
    · intro hno
      exact absurd hq (hno q)
  · have hno (q : Nat) : ¬Room tr n c.remote.endpoint q := fun hq => hroom ⟨q, hq⟩
    obtain ⟨k, hc⟩ := connect_made_refused ho hp (unserved_or_full h hno)
    have hrun := run_of_refused hc
    refine ⟨_, _, hrun, exists_run hw hrun, rfl, rfl, ?_, ?_, ?_⟩
    · simp [hroom]
    · intro q hq
      exact absurd hq (hno q)
    · intro _
      exact ⟨rfl, rfl, rfl⟩

/-- A payload of two bytes for a listener with room. The client has left, and its bytes can be read
from the connection that the listener accepts. -/
theorem delivered_of_serving_run :
    ∃ tr n n', Network.Run (.ofCid 3) tr n ∧
      run Network.transport { remote := Descriptor.remote 3 1234, payload := [104, 105] } n =
        some (.ok ⟨some (Descriptor.local 3 40000), Descriptor.remote 3 1234, 2⟩, n') ∧
      n'.registry = [(⟨3, 1234⟩, some 0)] ∧
      ∃ m, n'.accept 0 = some (.ok (2, Descriptor.peer 3 40000), m) ∧
        ∀ room, ∃ m', m.recv 2 room = some (.ok ([104, 105].take room), m') := by
  have h := Network.Run.nil (n := .ofCid 3)
    |>.snoc (.call (q := .socket) rfl)
    |>.snoc (.call (q := .bind 0 (Descriptor.bind 3 1234)) rfl)
    |>.snoc (.call (q := .listen 0 1) rfl)
  obtain ⟨o, n', hrun, hdone⟩ := delivered_of_run h
    { remote := Descriptor.remote 3 1234, payload := [104, 105] }
    ⟨40000, by unfold HandedOut; decide, rfl⟩
  obtain ⟨port, p, hp, rfl, hqueues, -, -, -, hpeer, -, -, hread⟩ :=
    hdone.room 0 ⟨0, _, _, 1, rfl, rfl, List.mem_append_right _ (List.mem_singleton_self _), by decide⟩
  have hport : port = 40000 :=
    hp.unique ⟨rfl, 0, rfl, fun j hj => absurd hj (Nat.not_lt_zero j)⟩
  subst hport
  have hslot : n'.slot 0 = .listening (Descriptor.local 3 1234) 0 := by
    rw [slot, hdone.slots]
    rfl
  have hqueue : n'.queues[0]? = some ⟨[p], 1, false⟩ := by
    rw [hqueues]
    rfl
  have haccept := accept_eq hslot hqueue rfl
  have hl : n'.slots.length = 2 := by rw [hdone.slots]; rfl
  rw [hpeer, hl] at haccept
  refine ⟨_, _, n', h, hrun, hdone.registry, _, haccept, ?_⟩
  have hrest := hread _ _ 2 (Network.Run.nil.snoc (.call (q := .accept 0) haccept)) (by
    rw [slot_of_slots_append (n := n') rfl, hl]
    rfl)
  obtain ⟨rest, hrest, hrecv⟩ := hrest rfl
  cases hrest
  exact hrecv

end Client
end Handoff
