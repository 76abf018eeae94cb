import Handoff.Proofs.Loopback.Wiring

/-!
Each direction of a connection as a stream of bytes. A run is read twice: as what was sent into a
pipe and received from it, and as which of its sides were closed. The main statement,
`stream_of_run`, is that the pipe of the last network holds what is still due.
-/
namespace Handoff.Loopback.Network

def connection (n : Network) (c : Nat) : Connection := n.connections[c]?.getD .fresh

/-- The pipe that a side of a connection reads from. -/
def pipe (n : Network) (c : Nat) (side : Side) : Pipe := (n.connection c).incoming side

/-- Whether giving a socket up also gives up the end of a connection: it holds that end, or the end
waits in its queue. -/
def yields (n : Network) (s c : Nat) (side : Side) : Bool :=
  match n.slot s with
  | .connected _ c' side' => decide (c' = c ∧ side' = side)
  | .listening _ q => decide (side = .callee ∧ ∃ p ∈ n.waitingIn q, p.connection = c)
  | .fresh | .bound _ | .closed => false

namespace Moment

variable (c : Nat) (side : Side)

/-- The bytes that are sent towards a side. -/
def sentTo : Moment → List UInt8
  | (n, .answered (.send s data) (.ok _)) =>
    if (n.slot s).end? = some (c, side.other) then data else []
  | _ => []

/-- The bytes that a side receives. -/
def receivedAt : Moment → List UInt8
  | (n, .answered (.recv s _) (.ok bytes)) => if (n.slot s).end? = some (c, side) then bytes else []
  | _ => []

/-- Whether a side stops reading: it shuts reading down, or is given up. -/
def stopsReading : Moment → Bool
  | (n, .answered (.shutdown s how) (.ok _)) =>
    decide (how ≠ .write ∧ (n.slot s).end? = some (c, side))
  | (n, .dropped s) => n.yields s c side
  | _ => false

/-- Whether a side stops writing: it shuts writing down, or is given up. -/
def stopsWriting : Moment → Bool
  | (n, .answered (.shutdown s how) (.ok _)) =>
    decide (how ≠ .read ∧ (n.slot s).end? = some (c, side))
  | (n, .dropped s) => n.yields s c side
  | _ => false

end Moment

theorem connection_modify {n n' : Network} {c : Nat} {f : Connection → Connection}
    (h : n'.connections = n.connections.modify c f) (hc : c < n.connections.length) (k : Nat) :
    n'.connection k = if k = c then f (n.connection c) else n.connection k := by
  unfold connection
  rw [h, List.getElem?_modify]
  by_cases hk : k = c
  · subst hk
    simp [List.getElem?_eq_getElem hc]
  · simp [hk, Ne.symm hk]

theorem connection_set {n n' : Network} {c : Nat} {conn conn' : Connection}
    (h : n'.connections = n.connections.set c conn') (hc : n.connections[c]? = some conn)
    (k : Nat) : n'.connection k = if k = c then conn' else n.connection k := by
  unfold connection
  rw [h, List.getElem?_set]
  by_cases hk : k = c
  · subst hk
    simp [(List.getElem?_eq_some_iff.mp hc).1]
  · simp [hk, Ne.symm hk]

/-- A new connection looks as it did before it was made. -/
theorem connection_append {n n' : Network} (h : n'.connections = n.connections ++ [.fresh])
    (k : Nat) : n'.connection k = n.connection k := by
  unfold connection
  rw [h, List.getElem?_append]
  split
  · rfl
  · rename_i hk
    rw [List.getElem?_eq_none_iff.mpr (Nat.le_of_not_lt hk)]
    cases k - n.connections.length <;> rfl

theorem incoming_setIncoming_eq (conn : Connection) (a b : Side) (p : Pipe) :
    (conn.setIncoming a p).incoming b = if a = b then p else conn.incoming b := by
  cases a <;> cases b <;> rfl

theorem incoming_setOutgoing_eq (conn : Connection) (a b : Side) (p : Pipe) :
    (conn.setOutgoing a p).incoming b = if a = b.other then p else conn.incoming b := by
  cases a <;> cases b <;> rfl

/-- What ending directions at one side does to the pipe of a side. -/
theorem incoming_shut (conn : Connection) (a b : Side) (how : Direction) :
    (conn.shut a how).incoming b = (conn.incoming b).closing (decide (how ≠ .write ∧ a = b))
      (decide (how ≠ .read ∧ a = b.other)) := by
  cases a <;> cases b <;> cases how <;> simp [Connection.shut, Connection.shutRead,
    Connection.shutWrite, Connection.setIncoming, Connection.setOutgoing, Connection.incoming,
    Connection.outgoing, Side.other, Pipe.closing, Pipe.closeRead, Pipe.closeWrite]

/-- A pipe after directions were ended at one side of a connection. -/
theorem pipe_shut {n n' : Network} {c : Nat} {a : Side} {how : Direction}
    (h : n'.connections = n.connections.modify c (·.shut a how)) (hc : c < n.connections.length)
    (k : Nat) (side : Side) :
    n'.pipe k side = (n.pipe k side).closing (decide (how ≠ .write ∧ c = k ∧ a = side))
      (decide (how ≠ .read ∧ c = k ∧ a = side.other)) := by
  unfold pipe
  rw [connection_modify h hc]
  by_cases hk : k = c
  · subst hk
    simp [incoming_shut]
  · simp [hk, Ne.symm hk]

/-- A pipe after the connections in a queue have lost their accepted ends. -/
theorem pipe_orphan {n n' : Network} {pending : List Pending}
    (h : n'.connections = orphan n.connections pending)
    (hc : ∀ p ∈ pending, p.connection < n.connections.length) (k : Nat) (side : Side) :
    n'.pipe k side =
      (n.pipe k side).closing (decide (side = .callee ∧ ∃ p ∈ pending, p.connection = k))
        (decide (side.other = .callee ∧ ∃ p ∈ pending, p.connection = k)) := by
  induction pending generalizing n with
  | nil =>
    have he : n'.pipe k side = n.pipe k side := by
      rw [pipe, connection, h]
      rfl
    simp [he]
  | cons p pending ih =>
    -- one connection is cut off, then the others
    let m : Network := n.modifyConnection p.connection (·.shut .callee .both)
    have hp := @pipe_shut n m p.connection .callee .both rfl (hc p (by simp)) k side
    have hl : ∀ x ∈ pending, x.connection < m.connections.length := by
      intro x hx
      simpa [m, modifyConnection] using hc x (by simp [hx])
    rw [@ih m h hl, hp, Pipe.closing_closing]
    congr 1
    · cases side <;> simp
    · cases side <;> simp [Side.other]

theorem other_other (side : Side) : side.other.other = side := by cases side <;> rfl

theorem connection_of_getElem? {n : Network} {c : Nat} {conn : Connection}
    (h : n.connections[c]? = some conn) : n.connection c = conn := by simp [connection, h]

theorem pipe_setOutgoing {n n' : Network} {c : Nat} {conn : Connection} {a : Side} {p : Pipe}
    (h : n'.connections = n.connections.set c (conn.setOutgoing a p))
    (hc : n.connections[c]? = some conn) (k : Nat) (side : Side) :
    n'.pipe k side = if k = c ∧ a = side.other then p else n.pipe k side := by
  rw [pipe, connection_set h hc]
  by_cases hk : k = c
  · subst hk
    simp [incoming_setOutgoing_eq, pipe, connection_of_getElem? hc]
  · simp [hk, pipe]

theorem pipe_setIncoming {n n' : Network} {c : Nat} {conn : Connection} {a : Side} {p : Pipe}
    (h : n'.connections = n.connections.set c (conn.setIncoming a p))
    (hc : n.connections[c]? = some conn) (k : Nat) (side : Side) :
    n'.pipe k side = if k = c ∧ a = side then p else n.pipe k side := by
  rw [pipe, connection_set h hc]
  by_cases hk : k = c
  · subst hk
    simp [incoming_setIncoming_eq, pipe, connection_of_getElem? hc]
  · simp [hk, pipe]

section Moves

open Moment

variable {n n' : Network} {s c₀ : Nat} {own : Descriptor} {side₀ : Side} {conn : Connection}

theorem end?_of_slot (h : n.slot s = .connected own c₀ side₀) :
    (n.slot s).end? = some (c₀, side₀) := by rw [h]; rfl

theorem slot_of_end? {x : Nat × Side} (h : (n.slot s).end? = some x) :
    ∃ own, n.slot s = .connected own x.1 x.2 := by
  cases hs : n.slot s with
  | connected own c side =>
    rw [hs] at h
    cases h
    exact ⟨own, rfl⟩
  | fresh => simp [hs, Slot.end?] at h
  | bound _ => simp [hs, Slot.end?] at h
  | listening _ _ => simp [hs, Slot.end?] at h
  | closed => simp [hs, Slot.end?] at h

theorem move_of_same (h : ∀ c, n'.connection c = n.connection c) (c : Nat) (side : Side) :
    (n.pipe c side).Move [] [] false false (n'.pipe c side) := by
  rw [pipe, pipe, h c]
  exact .idle _

/-- A send writes to the pipe of the other side, and to no other. -/
theorem move_of_sent {data : List UInt8} {p : Pipe} (hs : n.slot s = .connected own c₀ side₀)
    (hc : n.connections[c₀]? = some conn)
    (hw : (conn.outgoing side₀).write data = (.ok data.length, p))
    (h : n'.connections = n.connections.set c₀ (conn.setOutgoing side₀ p)) (c : Nat)
    (side : Side) :
    (n.pipe c side).Move (sentTo c side (n, .answered (.send s data) (.ok data.length))) []
      false false (n'.pipe c side) := by
  have he := end?_of_slot hs
  rw [pipe_setOutgoing h hc]
  by_cases hx : c = c₀ ∧ side₀ = side.other
  · obtain ⟨rfl, rfl⟩ := hx
    have hp : conn.outgoing side.other = n.pipe c side := by
      rw [Connection.outgoing, other_other, pipe, connection_of_getElem? hc]
    simp only [sentTo, he, and_self, if_true]
    exact .write (hp ▸ hw)
  · have hd : ¬(c₀ = c ∧ side₀ = side.other) := fun hd => hx ⟨hd.1.symm, hd.2⟩
    simp only [sentTo, he, Option.some.injEq, Prod.mk.injEq, if_neg hd, if_neg hx]
    exact .idle _

/-- A receive reads from the pipe of its own side, and from no other. -/
theorem move_of_received {room : Nat} {bytes : List UInt8} {p : Pipe}
    (hs : n.slot s = .connected own c₀ side₀) (hc : n.connections[c₀]? = some conn)
    (hr : (conn.incoming side₀).read room = some (bytes, p))
    (h : n'.connections = n.connections.set c₀ (conn.setIncoming side₀ p)) (c : Nat)
    (side : Side) :
    (n.pipe c side).Move [] (receivedAt c side (n, .answered (.recv s room) (.ok bytes)))
      false false (n'.pipe c side) := by
  have he := end?_of_slot hs
  rw [pipe_setIncoming h hc]
  by_cases hx : c = c₀ ∧ side₀ = side
  · obtain ⟨rfl, rfl⟩ := hx
    have hp : conn.incoming side₀ = n.pipe c side₀ := by
      rw [pipe, connection_of_getElem? hc]
    simp only [receivedAt, he, and_self, if_true]
    exact .read (hp ▸ hr)
  · have hd : ¬(c₀ = c ∧ side₀ = side) := fun hd => hx ⟨hd.1.symm, hd.2⟩
    simp only [receivedAt, he, Option.some.injEq, Prod.mk.injEq, if_neg hd, if_neg hx]
    exact .idle _

theorem move_of_shut {how : Direction} (hw : Wired n) (hs : n.slot s = .connected own c₀ side₀)
    (c : Nat) (side : Side) :
    (n.pipe c side).Move [] [] (stopsReading c side (n, .answered (.shutdown s how) (.ok ())))
      (stopsWriting c side.other (n, .answered (.shutdown s how) (.ok ())))
      ((n.modifyConnection c₀ (·.shut side₀ how)).pipe c side) := by
  have he := end?_of_slot hs
  have hl : c₀ < n.connections.length := hw.made _ (mem_ends_of_slot he)
  rw [@pipe_shut n (n.modifyConnection c₀ (·.shut side₀ how)) c₀ side₀ how rfl hl c side]
  simp only [stopsReading, stopsWriting, he, Option.some.injEq, Prod.mk.injEq]
  exact .close _ _

theorem move_of_dropped (hw : Wired n) (s c : Nat) (side : Side) :
    (n.pipe c side).Move [] [] (stopsReading c side (n, .dropped s))
      (stopsWriting c side.other (n, .dropped s)) ((n.drop s).pipe c side) := by
  have hc := drop_connections n s
  cases hs : n.slot s with
  | listening own q =>
    have hl : ∀ p ∈ n.waitingIn q, p.connection < n.connections.length := by
      intro p hp
      unfold waitingIn at hp
      cases hq : n.queues[q]? with
      | none => simp [hq] at hp
      | some queue =>
        rw [hq] at hp
        exact hw.made _ (mem_ends_of_pending hq hp)
    rw [hs] at hc
    rw [pipe_orphan hc hl c side]
    simp only [stopsReading, stopsWriting, yields, hs]
    exact .close _ _
  | connected own c₀ side₀ =>
    have hl : c₀ < n.connections.length := hw.made _ (mem_ends_of_slot (end?_of_slot hs))
    rw [hs] at hc
    rw [pipe_shut hc hl c side]
    simp only [stopsReading, stopsWriting, yields, hs, ne_eq, reduceCtorEq, not_false_eq_true,
      true_and]
    exact .close _ _
  | fresh | bound own | closed =>
    rw [hs] at hc
    have hn : ∀ k, (n.drop s).connection k = n.connection k := fun k => by
      rw [connection, hc]
      rfl
    simp only [stopsReading, stopsWriting, yields, hs]
    exact move_of_same hn c side

/-- What a change does to a pipe is a step of that pipe alone. -/
theorem move_of_change {e : Event} (hw : Wired n) (h : Change n e n') (c : Nat) (side : Side) :
    (n.pipe c side).Move (sentTo c side (n, e)) (receivedAt c side (n, e))
      (stopsReading c side (n, e)) (stopsWriting c side.other (n, e)) (n'.pipe c side) := by
  have hsame {m : Network} (hm : m.connections = n.connections) (k : Nat) :
      m.connection k = n.connection k := by rw [connection, hm, connection]
  cases h with
  | failed q _ => cases q <;> exact .idle _
  | told _ => exact .idle _
  | made => exact move_of_same (hsame rfl) c side
  | bound _ _ _ _ => exact move_of_same (hsame rfl) c side
  | listening _ => exact move_of_same (hsame rfl) c side
  | accepted _ _ _ => exact move_of_same (hsame rfl) c side
  | connected _ _ _ _ => exact move_of_same (connection_append rfl) c side
  | crowded _ _ _ => exact move_of_same (hsame rfl) c side
  | sent hs hc hd => exact move_of_sent hs hc hd rfl c side
  | received hs hc hr => exact move_of_received hs hc hr rfl c side
  | shut hs => exact move_of_shut hw hs c side
  | dropped s => exact move_of_dropped hw s c side

/-- Whatever a pipe held before a run, it holds with what is sent into it what is still due. -/
theorem flow_after {tr : List Moment} {sent received : List UInt8} {r w : Bool} {c : Nat}
    {side : Side} (hw : Wired n) (hf : Pipe.Flow sent received r w (n.pipe c side))
    (h : Run n tr n') :
    Pipe.Flow (sent ++ tr.flatMap (sentTo c side)) (received ++ tr.flatMap (receivedAt c side))
      (r || tr.any (stopsReading c side)) (w || tr.any (stopsWriting c side.other))
      (n'.pipe c side) := by
  induction h with
  | nil => simpa using hf
  | snoc hr hs ih =>
    have hm := ih.move (move_of_change (wired_of_run hr hw) (change_of_step hs) c side)
    simpa [Bool.or_assoc] using hm

/-- Through every run each pipe holds what is still due. -/
theorem flow_of_run {tr : List Moment} (hw : Wired n)
    (hf : ∀ c side, Pipe.Flow [] [] false false (n.pipe c side)) (h : Run n tr n') (c : Nat)
    (side : Side) :
    Pipe.Flow (tr.flatMap (sentTo c side)) (tr.flatMap (receivedAt c side))
      (tr.any (stopsReading c side)) (tr.any (stopsWriting c side.other)) (n'.pipe c side) := by
  simpa using flow_after hw (hf c side) h

theorem flow_ofCid {cid : UInt32} (h : Run (ofCid cid) tr n) (c : Nat) (side : Side) :
    Pipe.Flow (tr.flatMap (sentTo c side)) (tr.flatMap (receivedAt c side))
      (tr.any (stopsReading c side)) (tr.any (stopsWriting c side.other)) (n.pipe c side) :=
  flow_of_run (wired_ofCid cid) (fun _ side => by cases side <;> exact Pipe.flow_empty) h c side

/-- A pipe that nothing comes out of any more stays one. -/
theorem spent_of_run {tr : List Moment} {c : Nat} {side : Side} (hw : Wired n) (h : Run n tr n')
    (hp : (n.pipe c side).Spent) : (n'.pipe c side).Spent := by
  induction h with
  | nil => exact hp
  | snoc hr hs ih =>
    exact ih.move (move_of_change (wired_of_run hr hw) (change_of_step hs) c side)

/-- A connected socket sends into the pipe of the other side. -/
theorem send_eq (h : n.slot s = .connected own c₀ side₀) (hl : c₀ < n.connections.length)
    (data : List UInt8) :
    n.send s data =
      match (n.pipe c₀ side₀.other).write data with
      | (.error e, _) => some (.error e, n)
      | (.ok k, p) =>
        some (.ok k, { n with
          connections := n.connections.set c₀ ((n.connection c₀).setOutgoing side₀ p) }) := by
  have hc := List.getElem?_eq_getElem hl
  have he := connection_of_getElem? hc
  simp only [send, h, hc, pipe, he]
  rfl

/-- A connected socket receives from its own pipe. -/
theorem recv_eq (h : n.slot s = .connected own c₀ side₀) (hl : c₀ < n.connections.length)
    (room : Nat) :
    n.recv s room =
      match (n.pipe c₀ side₀).read room with
      | none => none
      | some (bytes, p) =>
        some (.ok bytes, { n with
          connections := n.connections.set c₀ ((n.connection c₀).setIncoming side₀ p) }) := by
  have hc := List.getElem?_eq_getElem hl
  have he := connection_of_getElem? hc
  rw [pipe, he]
  unfold recv
  rw [h]
  dsimp only
  split
  · rename_i hn
    exact absurd (hc.symm.trans hn) (by simp)
  · rename_i conn hs
    obtain rfl := Option.some.inj (hc.symm.trans hs)
    rfl

/-- A send takes all of its bytes, or the pipe is closed and takes none. -/
theorem send_cases (h : n.slot s = .connected own c₀ side₀) (hl : c₀ < n.connections.length)
    (data : List UInt8) :
    (∃ m, n.send s data = some (.ok data.length, m) ∧
      m.pipe c₀ side₀.other = { n.pipe c₀ side₀.other with
        buffer := (n.pipe c₀ side₀.other).buffer ++ data }) ∨
    n.send s data = some (.error (.plain .brokenPipe), n) ∧
      ((n.pipe c₀ side₀.other).writeClosed = true ∨ (n.pipe c₀ side₀.other).readClosed = true) := by
  have he := send_eq h hl data
  have hc := List.getElem?_eq_getElem hl
  cases hp : (n.pipe c₀ side₀.other).write data with
  | mk r p =>
    rw [hp] at he
    cases r with
    | error e =>
      unfold Pipe.write at hp
      split at hp
      · rename_i hw
        simp only [Prod.mk.injEq, Except.error.injEq] at hp
        exact .inr ⟨hp.1 ▸ he, (Bool.or_eq_true _ _).mp hw⟩
      · simp at hp
    | ok k =>
      obtain ⟨rfl, -, -, rfl⟩ := Pipe.of_write_eq_ok hp
      refine .inl ⟨_, he, ?_⟩
      rw [connection_of_getElem? hc, pipe_setOutgoing rfl hc c₀ side₀.other,
        if_pos ⟨rfl, (other_other side₀).symm⟩]

theorem length_of_send {data : List UInt8} {k : Nat} (h : n.slot s = .connected own c₀ side₀)
    (hl : c₀ < n.connections.length) (hs : n.send s data = some (.ok k, n')) : k = data.length := by
  have hm := send_cases h hl data
  simp only [hs, Option.some.injEq, Prod.mk.injEq, Except.ok.injEq, reduceCtorEq, false_and,
    or_false] at hm
  obtain ⟨m, ⟨hk, -⟩, -⟩ := hm
  exact hk

theorem error_of_send {data : List UInt8} {e : IoError} (h : n.slot s = .connected own c₀ side₀)
    (hl : c₀ < n.connections.length) (hs : n.send s data = some (.error e, n')) :
    e = .plain .brokenPipe ∧ ((n.pipe c₀ side₀.other).writeClosed = true ∨
      (n.pipe c₀ side₀.other).readClosed = true) := by
  have hm := send_cases h hl data
  simp only [hs, Option.some.injEq, Prod.mk.injEq, Except.error.injEq, reduceCtorEq, false_and,
    exists_false, false_or] at hm
  exact ⟨hm.1.1, hm.2⟩

/-- A receive that returns has read from the pipe. -/
theorem of_recv {room : Nat} {r : Except IoError (List UInt8)}
    (h : n.slot s = .connected own c₀ side₀) (hl : c₀ < n.connections.length)
    (hr : n.recv s room = some (r, n')) :
    ∃ bytes, r = .ok bytes ∧ (n.pipe c₀ side₀).read room = some (bytes, n'.pipe c₀ side₀) := by
  have hc := List.getElem?_eq_getElem hl
  rw [recv_eq h hl] at hr
  cases hp : (n.pipe c₀ side₀).read room with
  | none => simp [hp] at hr
  | some x =>
    obtain ⟨bytes, p⟩ := x
    simp only [hp, Option.some.injEq, Prod.mk.injEq] at hr
    obtain ⟨rfl, rfl⟩ := hr
    refine ⟨bytes, rfl, ?_⟩
    rw [connection_of_getElem? hc, pipe_setIncoming rfl hc c₀ side₀, if_pos ⟨rfl, rfl⟩]

theorem set_connection (hl : c₀ < n.connections.length) :
    n.connections.set c₀ (n.connection c₀) = n.connections := by
  rw [connection_of_getElem? (List.getElem?_eq_getElem hl), List.set_getElem_self]

theorem send_of_closed (h : n.slot s = .connected own c₀ side₀) (hl : c₀ < n.connections.length)
    (hp : (n.pipe c₀ side₀.other).writeClosed = true ∨ (n.pipe c₀ side₀.other).readClosed = true)
    (data : List UInt8) : n.send s data = some (.error (.plain .brokenPipe), n) := by
  rw [send_eq h hl, Pipe.write_of_closed hp]

theorem send_of_spent (h : n.slot s = .connected own c₀ side₀) (hl : c₀ < n.connections.length)
    (hp : (n.pipe c₀ side₀.other).Spent) (data : List UInt8) :
    n.send s data = some (.error (.plain .brokenPipe), n) := send_of_closed h hl hp.2 data

theorem recv_of_spent (h : n.slot s = .connected own c₀ side₀) (hl : c₀ < n.connections.length)
    (hp : (n.pipe c₀ side₀).Spent) (room : Nat) : n.recv s room = some (.ok [], n) := by
  have hi : (n.connection c₀).setIncoming side₀ (n.pipe c₀ side₀) = n.connection c₀ := by
    cases side₀ <;> rfl
  rw [recv_eq h hl, hp.read]
  simp only [hi, set_connection hl]

end Moves

open Moment in
/-- Each direction of a connection is a reliable stream. A send appends all of its bytes or none.
What was received begins what was sent, and with what is buffered makes up all of it until the
receiving side stops reading. A receive of no bytes is the end: the sender has stopped writing and
all its bytes were consumed, or the receiver has stopped reading, and nothing follows. -/
theorem stream_of_run {cid : UInt32} {tr : List Moment} {n : Network}
    (h : Run (ofCid cid) tr n) (c : Nat) (side : Side) :
    tr.flatMap (receivedAt c side) <+: tr.flatMap (sentTo c side) ∧
    (tr.any (stopsReading c side) = false →
      tr.flatMap (receivedAt c side) ++ (n.pipe c side).buffer = tr.flatMap (sentTo c side)) ∧
    (∀ s own data, n.slot s = .connected own c side.other →
      (∃ n', n.send s data = some (.ok data.length, n') ∧
        n'.pipe c side = { n.pipe c side with buffer := (n.pipe c side).buffer ++ data }) ∨
      n.send s data = some (.error (.plain .brokenPipe), n)) ∧
    (∀ s own room n', n.slot s = .connected own c side → 0 < room →
      n.recv s room = some (.ok [], n') →
      (tr.any (stopsWriting c side.other) = true ∧
          tr.flatMap (receivedAt c side) = tr.flatMap (sentTo c side) ∨
        tr.any (stopsReading c side) = true) ∧
      ∀ tr' n'', Run n' tr' n'' →
        (∀ t own room, n''.slot t = .connected own c side →
          n''.recv t room = some (.ok [], n'')) ∧
        (∀ t own data, n''.slot t = .connected own c side.other →
          n''.send t data = some (.error (.plain .brokenPipe), n''))) ∧
    (∀ s t own own' side', n.slot s = .connected own c side' →
      n.slot t = .connected own' c side' → s = t) := by
  have hw₀ := wired_ofCid cid
  have hw := wired_of_run h hw₀
  have hf := flow_of_run hw₀ (fun _ side => by cases side <;> exact Pipe.flow_empty) h c side
  have hl {m : Network} (hm : Wired m) {s : Nat} {own : Descriptor} {side' : Side}
      (hs : m.slot s = .connected own c side') : c < m.connections.length :=
    hm.made _ (mem_ends_of_slot (end?_of_slot hs))
  refine ⟨hf.received_prefix, hf.kept, ?_, ?_, ?_⟩
  · intro s own data hs
    have hc := send_cases hs (hl hw hs) data
    rw [other_other] at hc
    exact hc.imp_right And.left
  · intro s own room n' hs hr he
    have hsp : (n.pipe c side).Spent := by
      obtain ⟨bytes, hb, hp⟩ := of_recv hs (hl hw hs) he
      cases hb
      exact Pipe.of_read_eq_nil hr hp
    constructor
    · cases hx : tr.any (stopsReading c side) with
      | true => exact .inr rfl
      | false =>
        refine .inl ⟨?_, ?_⟩
        · rcases hsp.2 with hc | hc
          · exact hf.writeClosed.symm.trans hc
          · rw [hf.readClosed, hx] at hc
            simp at hc
        · have hk := hf.kept hx
          rwa [hsp.1, List.append_nil] at hk
    · intro tr' n'' hr'
      have hs' : Step n (.answered (.recv s room) (.ok [])) n' := .call he
      have hw' := hw.step (change_of_step hs')
      have hsp' := spent_of_run hw (.snoc .nil hs') hsp
      have hsp'' := spent_of_run hw' hr' hsp'
      have hw'' := wired_of_run hr' hw'
      constructor
      · intro t own room ht
        exact recv_of_spent ht (hl hw'' ht) hsp'' room
      · intro t own data ht
        exact send_of_spent ht (hl hw'' ht) (by rwa [other_other]) data
  · intro s t own own' side' hs ht
    exact hw.holder_unique (end?_of_slot hs) (end?_of_slot ht)

open Moment in
/-- Two bytes are sent before the connection is accepted, and the caller is given up before they are
read. They all arrive, and then nothing more. -/
theorem stream_of_closing_run :
    ∃ tr n, Run (ofCid 3) tr n ∧ tr.flatMap (sentTo 0 .callee) = [104, 105] ∧
      tr.flatMap (receivedAt 0 .callee) = [104, 105] ∧
      ∀ room, n.recv 2 room = some (.ok [], n) := by
  have h := Run.nil (n := ofCid 3)
    |>.snoc (.call (q := .socket) rfl)
    |>.snoc (.call (q := .bind 0 (Descriptor.bind 3 1234)) rfl)
    |>.snoc (.call (q := .listen 0 1) rfl)
    |>.snoc (.call (q := .socket) rfl)
    |>.snoc (.call (q := .connect 1 (Descriptor.remote 3 1234)) rfl)
    |>.snoc (.call (q := .send 1 [104, 105]) rfl)
    |>.snoc (.drop 1)
    |>.snoc (.call (q := .accept 0) rfl)
    |>.snoc (.call (q := .recv 2 1024) rfl)
  have hs := stream_of_run h 0 .callee
  obtain ⟨-, hd⟩ := hs.2.2.2.1 2 _ 1 _ rfl Nat.one_pos rfl
  exact ⟨_, _, h, rfl, rfl, fun room => (hd [] _ .nil).1 2 _ room rfl⟩

end Handoff.Loopback.Network
