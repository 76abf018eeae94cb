import Mathlib.Algebra.Order.BigOperators.Group.List
import Mathlib.Algebra.Order.Group.Nat
import Handoff.Proofs.Exchange.Listening
import Handoff.Proofs.Exchange.Meeting
import Handoff.Proofs.Exchange.Pieces

/-!
A server that drains whoever connects to it first, however the steps of the two are mixed with each
other and with those of others. What it reports depends on the pieces in which the peer has sent its
bytes: all of them are counted, in no more receives than each piece would take on its own, and in no
fewer than all of them would take together. A server that asks for a larger buffer than there can be
panics over that peer instead. The main statement is `counted_of_run`.
-/
namespace Handoff

open Loopback (Network Side Pipe Pending Slot)
open Loopback.Network

/-- A server that has been set up, in a network that others use. -/
structure Sink where
  server : Drain Nat
  network : Network

namespace Sink

/-- What happens in a step, with what it happens to: the server takes a turn, or something else
happens in the network. -/
abbrev Moment := Sink × Option Event

/-- The others have sockets of their own. -/
inductive Step (x : Sink) : Option Event → Sink → Prop where
  | turn {d : Drain Nat} {n : Network}
      (h : x.server.step Network.transport x.network = some (d, n)) : Step x none ⟨d, n⟩
  | other {e : Event} {n : Network} (h : x.network.Step e n)
      (hs : ∀ s ∈ x.server.sockets, e.subject? ≠ some s) : Step x (some e) { x with network := n }

inductive Run (x : Sink) : List Moment → Sink → Prop where
  | nil : Run x [] x
  | snoc {tr : List Moment} {y z : Sink} {o : Option Event} (h : Run x tr y) (hs : Step y o z) :
      Run x (tr ++ [(y, o)]) z

/-- What happens in the network but for the turns of the server. -/
def others (tr : List Moment) : List Network.Moment :=
  tr.filterMap fun m => m.2.map fun e => (m.1.network, e)

/-- The first connection that is made to an endpoint. -/
def first? (target : Endpoint) (tr : List Moment) : Option Nat :=
  (others tr).findSome? (Network.Moment.joins? target)

def sent (k : Nat) (tr : List Moment) : List (List UInt8) := pieces k .callee (others tr)

/-- Whether the caller of a connection has stopped writing. -/
def closed (k : Nat) (tr : List Moment) : Bool :=
  (others tr).any (Network.Moment.stopsWriting k .caller)

def receives : Moment → Bool
  | (⟨.receiving .., _⟩, none) => true
  | _ => false

def turns (tr : List Moment) : Nat := tr.countP fun m => m.2.isNone

/-- Nothing is sent on a connection any more once the server has received. -/
def Prompt (k : Nat) (tr : List Moment) : Prop :=
  ∀ tr₁ tr₂, tr = tr₁ ++ tr₂ → tr₁.any receives = true → sent k tr₂ = []

/-- How a server reports on pieces that it has drained in so many receives. The counts are words,
which are the numbers themselves if all the bytes can be counted in one. -/
structure Reports (l : Listener Nat) (cs : List (List UInt8)) (prompt : Prop) (count : Nat)
    (r : DrainReport) : Prop where
  own : r.own = l.own
  bytes : r.bytesReceived = .ofNat (cs.map List.length).sum
  reads : r.reads = .ofNat count
  whole : (cs.map List.length).sum < UInt64.size →
    r.bytesReceived.toNat = (cs.map List.length).sum ∧ r.reads.toNat = count
  least : roomfuls l.room.toNat (cs.map List.length).sum ≤ count
  most : count ≤ (cs.map fun c => roomfuls l.room.toNat c.length).sum
  exact : prompt → count = roomfuls l.room.toNat (cs.map List.length).sum
  empty : (∀ c ∈ cs, c = []) → r.bytesReceived = 0 ∧ r.reads = 0

/-- How a server is left that has met the caller of a connection. -/
inductive Left (l : Listener Nat) (k : Nat) (tr : List Moment) :
    Exit (Except Failure DrainReport) → Prop where
  | drained {r : DrainReport} {count : Nat} (hb : l.room ≤ largestBuffer)
      (hc : closed k tr = true) (hr : Reports l (sent k tr) (Prompt k tr) count r) :
      Left l k tr (.returned (.ok r))
  | panicked (hlt : largestBuffer < l.room) : Left l k tr .panicked

variable {l : Listener Nat} {q k : Nat} {tr : List Moment} {x y : Sink} {e : Event}
  {n n' : Network} {d d' : Drain Nat} {total reads t : Nat} {target : Endpoint}
  {z : Exit (Except Failure DrainReport)}

@[simp] theorem others_turn (tr : List Moment) (x : Sink) :
    others (tr ++ [(x, none)]) = others tr := by simp [others]

@[simp] theorem others_other (tr : List Moment) (x : Sink) (e : Event) :
    others (tr ++ [(x, some e)]) = others tr ++ [(x.network, e)] := by simp [others]

@[simp] theorem first?_turn (target : Endpoint) (tr : List Moment) (x : Sink) :
    first? target (tr ++ [(x, none)]) = first? target tr := by simp [first?]

theorem first?_other (target : Endpoint) (tr : List Moment) (x : Sink) (e : Event) :
    first? target (tr ++ [(x, some e)]) =
      (first? target tr).or (Network.Moment.joins? target (x.network, e)) := by
  rw [first?, others_other, List.findSome?_append, ← first?]
  cases h : Network.Moment.joins? target (x.network, e) <;> simp [h]

@[simp] theorem sent_turn (k : Nat) (tr : List Moment) (x : Sink) :
    sent k (tr ++ [(x, none)]) = sent k tr := by simp [sent]

theorem sent_other (k : Nat) (tr : List Moment) (x : Sink) (e : Event) :
    sent k (tr ++ [(x, some e)]) =
      sent k tr ++ (Network.Moment.pieceTo k .callee (x.network, e)).toList := by
  rw [sent, others_other, pieces, List.filterMap_append, ← pieces, ← sent]
  cases h : Network.Moment.pieceTo k .callee (x.network, e) <;> simp [h]

@[simp] theorem closed_turn (k : Nat) (tr : List Moment) (x : Sink) :
    closed k (tr ++ [(x, none)]) = closed k tr := by simp [closed]

theorem closed_other (k : Nat) (tr : List Moment) (x : Sink) (e : Event) :
    closed k (tr ++ [(x, some e)]) =
      (closed k tr || Network.Moment.stopsWriting k .caller (x.network, e)) := by
  simp [closed]

theorem turns_turn (tr : List Moment) (x : Sink) : turns (tr ++ [(x, none)]) = turns tr + 1 := by
  simp [turns]

@[simp] theorem turns_other (tr : List Moment) (x : Sink) (e : Event) :
    turns (tr ++ [(x, some e)]) = turns tr := by simp [turns]

theorem Prompt.init {m : Moment} (h : Prompt k (tr ++ [m])) : Prompt k tr := by
  intro tr₁ tr₂ htr hr
  have hlast := h tr₁ (tr₂ ++ [m]) (by rw [htr, List.append_assoc]) hr
  simp only [sent, others, pieces, List.filterMap_append, List.append_eq_nil_iff] at hlast
  exact hlast.1

theorem Prompt.turn (h : Prompt k tr) (x : Sink) : Prompt k (tr ++ [(x, none)]) := by
  intro tr₁ tr₂ htr hr
  rcases List.eq_nil_or_concat tr₂ with rfl | ⟨tr₃, m, rfl⟩
  · rfl
  · rw [List.concat_eq_append, ← List.append_assoc] at htr
    obtain ⟨hinit, hlast⟩ := List.append_inj' htr rfl
    cases hlast
    rw [List.concat_eq_append, sent_turn]
    exact h tr₁ tr₃ hinit hr

/-- A server has received nothing when a piece is sent that is prompt. -/
theorem Prompt.of_piece {data : List UInt8} (h : Prompt k (tr ++ [(x, some e)]))
    (hp : Network.Moment.pieceTo k .callee (x.network, e) = some data) :
    tr.any receives = false := by
  refine Bool.eq_false_iff.mpr ?_
  intro hr
  have hlast := h tr [(x, some e)] rfl hr
  simp [sent, others, pieces, hp] at hlast

/-- A pipe that holds what was sent into it, but for the bytes that were counted already. -/
structure Fed (cs : List (List UInt8)) (stopped : Bool) (total : Nat) (pipe : Pipe) : Prop where
  buffer : pipe.buffer = cs.flatten.drop total
  count : total ≤ cs.flatten.length
  writeClosed : pipe.writeClosed = stopped
  readClosed : pipe.readClosed = false

/-- What a server has counted that is about to report. -/
structure Done (l : Listener Nat) (k : Nat) (tr : List Moment) (pipe : Pipe) (bytes reads : Nat) :
    Prop where
  silent : pipe.writeClosed = true
  closed : closed k tr = true
  taken : bytes = (sent k tr).flatten.length
  counted : Counted l.room.toNat (sent k tr) (Prompt k tr) bytes reads

/-- What a server has come to, and in how many turns, that is about to give its sockets up. -/
inductive Settled (l : Listener Nat) (k : Nat) (tr : List Moment) (pipe : Pipe) :
    Nat → Exit (Except Failure DrainReport) → Prop where
  | drained {peer : Descriptor} {bytes reads : Nat} (hb : l.room ≤ largestBuffer)
      (hd : Done l k tr pipe bytes reads) :
      Settled l k tr pipe (reads + 3) (.returned (.ok ⟨l.own, peer, .ofNat bytes, .ofNat reads⟩))
  | panicked (hlt : largestBuffer < l.room) : Settled l k tr pipe 1 .panicked

/-- A server that is about to accept the caller of a connection, has accepted it, or is done with
it, with the turns that it has taken. -/
inductive Drains (l : Listener Nat) (q k : Nat) (tr : List Moment) (n : Network) :
    Drain Nat → Prop where
  | accepting {first : Pending} {rest : List Pending}
      (hl : n.slot l.handle.socket = .listening l.own q) (hq : n.waitingIn q = first :: rest)
      (hk : first.connection = k) (hp : Fed (sent k tr) (closed k tr) 0 (n.pipe k .callee))
      (ht : turns tr = 0) :
      Drains l q k tr n (.accepting l)
  | receiving {conn : Handle Nat} {peer : Descriptor} {total reads : Nat}
      (hb : l.room ≤ largestBuffer)
      (hl : n.slot l.handle.socket = .listening l.own q) (hc : conn.stage.isConnection = true)
      (hs : (n.slot conn.socket).end? = some (k, .callee))
      (hp : Fed (sent k tr) (closed k tr) total (n.pipe k .callee))
      (hr : Counted l.room.toNat (sent k tr) (Prompt k tr) total reads)
      (hi : tr.any receives = false → total = 0 ∧ reads = 0) (ht : turns tr = reads + 1) :
      Drains l q k tr n (.receiving l conn peer (.ofNat total) (.ofNat reads))
  | closing {conn : Handle Nat} {peer : Descriptor} {bytes reads : Nat}
      (hb : l.room ≤ largestBuffer)
      (hl : n.slot l.handle.socket = .listening l.own q) (hc : conn.stage.isConnection = true)
      (hs : (n.slot conn.socket).end? = some (k, .callee))
      (hd : Done l k tr (n.pipe k .callee) bytes reads) (ht : turns tr = reads + 2) :
      Drains l q k tr n (.closing l conn peer (.ofNat bytes) (.ofNat reads))
  | parting {conn : Handle Nat} {t : Nat} {z : Exit (Except Failure DrainReport)}
      (hl : n.slot l.handle.socket = .listening l.own q)
      (hs : (n.slot conn.socket).end? = some (k, .callee))
      (hd : Settled l k tr (n.pipe k .callee) t z) (ht : turns tr = t) :
      Drains l q k tr n (.leaving [conn.socket, l.handle.socket] z)
  | ending {t : Nat} {z : Exit (Except Failure DrainReport)}
      (hl : n.slot l.handle.socket = .listening l.own q)
      (hd : Settled l k tr (n.pipe k .callee) t z) (ht : turns tr = t + 1) :
      Drains l q k tr n (.leaving [l.handle.socket] z)
  | ended {t : Nat} {z : Exit (Except Failure DrainReport)}
      (hd : Settled l k tr (n.pipe k .callee) t z) (ht : turns tr = t + 2) :
      Drains l q k tr n (.leaving [] z)

/-! ### Turns of the server -/

theorem Done.turn (h : Done l k tr (n.pipe k .callee) total reads) (hw : Wired n)
    (hc : Change n e n') (x : Sink) :
    Done l k (tr ++ [(x, none)]) (n'.pipe k .callee) total reads where
  silent := (move_of_change hw hc k .callee).writeClosed h.silent
  closed := by rw [closed_turn, h.closed]
  taken := by rw [sent_turn, h.taken]
  counted := by
    rw [sent_turn]
    exact h.counted.mono Prompt.init

theorem Settled.turn (h : Settled l k tr (n.pipe k .callee) t z) (hw : Wired n)
    (hc : Change n e n') (x : Sink) : Settled l k (tr ++ [(x, none)]) (n'.pipe k .callee) t z := by
  cases h with
  | drained hb hd => exact .drained hb (hd.turn hw hc x)
  | panicked hlt => exact .panicked hlt

/-- Bytes that are received are counted, and the rest is left in the pipe. -/
theorem Fed.read {cs : List (List UInt8)} {stopped : Bool} {pipe pipe' : Pipe} {room : Nat}
    {bytes : List UInt8} (h : Fed cs stopped total pipe) (hr : 0 < room)
    (hx : pipe.read room = some (bytes, pipe')) :
    Fed cs stopped (total + bytes.length) pipe' ∧
      bytes.length = min room (cs.flatten.length - total) := by
  obtain ⟨hbytes, hpipe⟩ := Pipe.of_read hr hx
  have hlen : bytes.length = min room (cs.flatten.length - total) := by
    rw [hbytes, h.buffer, List.length_take, List.length_drop]
  have hcount := h.count
  refine ⟨⟨?_, by omega, ?_, ?_⟩, hlen⟩
  · rw [hpipe, h.buffer, List.drop_drop]
    by_cases hroom : room ≤ cs.flatten.length - total
    · rw [hlen, Nat.min_eq_left hroom]
    · rw [List.drop_eq_nil_of_le (by omega), List.drop_eq_nil_of_le (by omega)]
  · rw [hpipe, h.writeClosed]
  · rw [hpipe, h.readClosed]

/-- When nothing is received, all that was sent is counted, and the caller has stopped writing. -/
theorem Fed.drained {cs : List (List UInt8)} {stopped : Bool} {pipe pipe' : Pipe} {room : Nat}
    (h : Fed cs stopped total pipe) (hr : 0 < room) (hx : pipe.read room = some ([], pipe')) :
    stopped = true ∧ total = cs.flatten.length := by
  obtain ⟨hempty, hclosed⟩ := Pipe.of_read_eq_nil hr hx
  constructor
  · rcases hclosed with hc | hc
    · exact h.writeClosed.symm.trans hc
    · exact absurd (h.readClosed.symm.trans hc) (by simp)
  · rw [h.buffer, List.drop_eq_nil_iff] at hempty
    exact Nat.le_antisymm h.count hempty

/-- A turn of the server keeps the books. -/
theorem Drains.turn (hw : Wired n) (hr : 0 < l.room.toNat) (h : Drains l q k tr n d)
    (ht : Drain.Turn d e d') (hs : n.Step e n') :
    Drains l q k (tr ++ [(⟨d, n⟩, none)]) n' d' := by
  have hc := change_of_step hs
  have hafter {m : Nat} (hm : turns tr = m) : turns (tr ++ [(⟨d, n⟩, none)]) = m + 1 := by
    rw [turns_turn, hm]
  cases h with
  | accepting hl hq hk hp hturns =>
    cases ht with
    | accepted _ s peer =>
      obtain ⟨hanswer, hl', hend, hpipe⟩ := accept_of_first hl hq hs.answer
      cases hanswer
      rw [hk] at hend
      by_cases hb : l.room ≤ largestBuffer
      · rw [Drain.met_of_le hb]
        refine .receiving hb hl' rfl hend ?_ (counted_zero hr _ _) (fun _ => ⟨rfl, rfl⟩)
          (hafter hturns)
        rw [sent_turn, closed_turn, hpipe]
        exact hp
      · rw [Drain.met_of_lt (UInt64.not_le.mp hb)]
        exact .parting hl' hend (.panicked (UInt64.not_le.mp hb)) (hafter hturns)
    | aborted _ e => cases (accept_of_first hl hq hs.answer).1
  | receiving hb hl hconn hend hp hcount hi hturns =>
    rename_i conn peer total reads
    obtain ⟨near, hnear⟩ := slot_of_end? hend
    have hlt := hw.made _ (mem_ends_of_slot hend)
    cases ht with
    | received _ _ _ _ _ bytes hne =>
      have hslot (t : Nat) : n'.slot t = n.slot t := slot_of_transfer hc rfl t
      obtain ⟨_, he, hread⟩ := of_recv hnear hlt hs.answer
      cases he
      obtain ⟨hfed, hlen⟩ := hp.read hr hread
      have hpos := List.length_pos_iff.mpr hne
      rw [← UInt64.ofNat_add, Drain.ofNat_add_one]
      refine .receiving hb ((hslot _).trans hl) (Drain.isConnection_draining hconn)
        ?_ ?_ ?_ ?_ (hafter hturns)
      · rw [Drain.socket_draining, hslot, hend]
      · rw [sent_turn, closed_turn]
        exact hfed
      · rw [sent_turn, hlen]
        exact (hcount.take hr (by omega)).mono Prompt.init
      · intro hnone
        simp [receives] at hnone
    | drained _ _ _ _ _ =>
      have hslot (t : Nat) : n'.slot t = n.slot t := slot_of_transfer hc rfl t
      obtain ⟨_, he, hread⟩ := of_recv hnear hlt hs.answer
      cases he
      obtain ⟨hclosed, htotal⟩ := hp.drained hr hread
      have hdone : Done l k tr (n.pipe k .callee) total reads :=
        ⟨hp.writeClosed.trans hclosed, hclosed, htotal, hcount⟩
      refine .closing hb ((hslot _).trans hl) (Drain.isConnection_draining hconn) ?_
        (hdone.turn hw hc _) (hafter hturns)
      rw [Drain.socket_draining, hslot, hend]
    | cut _ _ _ _ _ e =>
      obtain ⟨bytes, he, -⟩ := of_recv hnear hlt hs.answer
      simp at he
  | closing hb hl hconn hend hd hturns =>
    cases ht with
    | shut _ _ _ _ _ =>
      have hslot (t : Nat) : n'.slot t = n.slot t := slot_of_transfer hc rfl t
      exact .parting ((hslot _).trans hl) (by rw [hslot, hend]) (.drained hb (hd.turn hw hc _))
        (hafter hturns)
    | unshut _ _ _ _ _ e =>
      obtain ⟨near, hnear⟩ := slot_of_end? hend
      exact absurd hs.answer (not_error_of_shutdown hnear)
  | parting hl hend hd hturns =>
    cases ht with
    | left s rest _ =>
      refine .ending ?_ (hd.turn hw hc _) (hafter hturns)
      cases hs
      rw [slot_drop, if_neg]
      · exact hl
      · intro he
        rw [he] at hl
        rw [hl] at hend
        simp [Slot.end?] at hend
  | ending hl hd hturns =>
    cases ht with
    | left s rest _ => exact .ended (hd.turn hw hc _) (hafter hturns)
  | ended hd _ => cases ht

/-! ### What others do -/

/-- What is sent is in the pipe. -/
theorem Fed.frame (hw : Wired n) (hc : Change n e n') (hq : Quiet k .callee (n, e))
    (h : Fed (sent k tr) (closed k tr) total (n.pipe k .callee)) (d : Drain Nat) :
    Fed (sent k (tr ++ [(⟨d, n⟩, some e)])) (closed k (tr ++ [(⟨d, n⟩, some e)])) total
      (n'.pipe k .callee) := by
  have hflat : (sent k (tr ++ [(⟨d, n⟩, some e)])).flatten =
      (sent k tr).flatten ++ Network.Moment.sentTo k .callee (n, e) := by
    rw [sent_other, List.flatten_append, sentTo_eq_pieceTo]
    cases Network.Moment.pieceTo k .callee (n, e) <;> simp
  obtain ⟨hp, -⟩ := pipe_of_quiet hw hc hq
  have hcount := h.count
  rw [hp]
  constructor
  · rw [hflat, List.drop_append_of_le_length hcount, h.buffer]
  · rw [hflat, List.length_append]
    omega
  · rw [closed_other, h.writeClosed]
    rfl
  · exact h.readClosed

/-- What is sent will take receives, which others than the last may fill. -/
theorem counted_frame {room : Nat} (h : Counted room (sent k tr) (Prompt k tr) total reads)
    (hr : 0 < room) (ht : total ≤ (sent k tr).flatten.length)
    (hi : tr.any receives = false → total = 0 ∧ reads = 0) (x : Sink) (e : Event) :
    Counted room (sent k (tr ++ [(x, some e)])) (Prompt k (tr ++ [(x, some e)])) total reads := by
  rw [sent_other]
  cases hp : Network.Moment.pieceTo k .callee (x.network, e) with
  | none =>
    rw [Option.toList_none, List.append_nil]
    exact h.mono Prompt.init
  | some data =>
    exact h.more hr ht data fun hprompt => hi (hprompt.of_piece hp)

/-- Nothing is sent any more once the caller has stopped writing. -/
theorem Done.frame (h : Done l k tr (n.pipe k .callee) total reads) (hw : Wired n)
    (hs : n.Step e n') (d : Drain Nat) :
    Done l k (tr ++ [(⟨d, n⟩, some e)]) (n'.pipe k .callee) total reads := by
  have hsent : sent k (tr ++ [(⟨d, n⟩, some e)]) = sent k tr := by
    rw [sent_other, pieceTo_of_closed hw hs h.silent, Option.toList_none, List.append_nil]
  constructor
  · exact (move_of_change hw (change_of_step hs) k .callee).writeClosed h.silent
  · rw [closed_other, h.closed, Bool.true_or]
  · rw [hsent, h.taken]
  · rw [hsent]
    exact h.counted.mono Prompt.init

theorem Settled.frame (h : Settled l k tr (n.pipe k .callee) t z) (hw : Wired n)
    (hs : n.Step e n') (d : Drain Nat) :
    Settled l k (tr ++ [(⟨d, n⟩, some e)]) (n'.pipe k .callee) t z := by
  cases h with
  | drained hb hd => exact .drained hb (hd.frame hw hs d)
  | panicked hlt => exact .panicked hlt

/-- What others do keeps the books as well. -/
theorem Drains.frame (hw : Wired n) (ho : Owned n) (hr : 0 < l.room.toNat) (h : Drains l q k tr n d)
    (hs : n.Step e n') (hn : ∀ s ∈ d.sockets, e.subject? ≠ some s) :
    Drains l q k (tr ++ [(⟨d, n⟩, some e)]) n' d := by
  have hc := change_of_step hs
  have hslot {s : Nat} (hm : s ∈ d.sockets) {t : Slot} (ht : n.slot s = t) (hne : t ≠ .closed) :
      n'.slot s = t := (slot_frame hc (lt_of_slot ht hne) (hn s hm)).trans ht
  have hend {s : Nat} (hm : s ∈ d.sockets) {z : Nat × Side} (hz : (n.slot s).end? = some z) :
      (n'.slot s).end? = some z := by
    obtain ⟨near, hnear⟩ := slot_of_end? hz
    rw [hslot hm hnear (by simp)]
    rfl
  have hown : l.handle.socket ∈ [l.handle.socket] := List.mem_singleton_self _
  have hafter {m : Nat} (hm : turns tr = m) : turns (tr ++ [(⟨d, n⟩, some e)]) = m := by
    rw [turns_other, hm]
  cases h with
  | accepting hl hq hk hp ht =>
    have hquiet := quiet_of_waiting hw ho hl (hq ▸ List.mem_cons_self) (hn _ hown)
    rw [hk] at hquiet
    obtain ⟨rest', hq'⟩ := first_waiting_frame ho hc hl (hn _ hown) hq
    exact .accepting (hslot hown hl (by simp)) hq' hk (hp.frame hw hc hquiet _) (hafter ht)
  | receiving hb hl hconn hs' hp hcount hi ht =>
    have hquiet := quiet_of_held hw hs' (hn _ List.mem_cons_self)
    refine .receiving hb (hslot (List.mem_cons_of_mem _ hown) hl (by simp)) hconn
      (hend List.mem_cons_self hs') (hp.frame hw hc hquiet _)
      (counted_frame hcount hr hp.count hi _ _) ?_ (hafter ht)
    intro hnone
    rw [List.any_append, Bool.or_eq_false_iff] at hnone
    exact hi hnone.1
  | closing hb hl hconn hs' hd ht =>
    exact .closing hb (hslot (List.mem_cons_of_mem _ hown) hl (by simp)) hconn
      (hend List.mem_cons_self hs') (hd.frame hw hs _) (hafter ht)
  | parting hl hs' hd ht =>
    exact .parting (hslot (List.mem_cons_of_mem _ hown) hl (by simp))
      (hend List.mem_cons_self hs') (hd.frame hw hs _) (hafter ht)
  | ending hl hd ht =>
    exact .ending (hslot hown hl (by simp)) (hd.frame hw hs _) (hafter ht)
  | ended hd ht => exact .ended (hd.frame hw hs _) (hafter ht)

/-! ### Runs -/

/-- Where a server stands to the first connection that is made to its endpoint. -/
inductive Stands (l : Listener Nat) (q : Nat) (tr : List Moment) (x : Sink) :
    Option Nat → Prop where
  | nobody (hd : x.server = .accepting l)
      (hl : x.network.slot l.handle.socket = .listening l.own q)
      (hq : x.network.waitingIn q = []) (ht : turns tr = 0) : Stands l q tr x none
  | first {k : Nat} (h : Drains l q k tr x.network x.server) : Stands l q tr x (some k)

/-- A server in a network that has come about by a run. -/
structure Sound (l : Listener Nat) (q : Nat) (tr : List Moment) (x : Sink) : Prop where
  wired : x.network.Wired
  owned : x.network.Owned
  unmade : ∀ k, x.network.connections.length ≤ k → sent k tr = [] ∧ closed k tr = false
  stands : Stands l q tr x (first? l.own.endpoint tr)

theorem Drains.staged (h : Drains l q k tr n d) (hl : l.handle.stage = .listening) : d.Staged := by
  cases h with
  | accepting => exact hl
  | receiving _ _ hc | closing _ _ hc => exact hc
  | parting | ending | ended => trivial

theorem Stands.waits (h : Stands l q tr x none) (ho : x.network.Owned)
    (hl : l.handle.stage = .listening) : x.server.step Network.transport x.network = none := by
  cases h with
  | nobody hd hs hq _ =>
    obtain ⟨queue, hqueue, hopen⟩ := ho.open_queue hs
    rw [hd, Drain.step_accepting hl,
      accept_eq_none hs hqueue ((waitingIn_of_getElem? hqueue).symm.trans hq) hopen]

/-- A server that waits goes on waiting, or has a caller, when something else has happened. -/
theorem Stands.other (h : Stands l q tr x none) (hw : x.network.Wired) (ho : x.network.Owned)
    (hk : ∀ k, x.network.connections.length ≤ k → sent k tr = [] ∧ closed k tr = false)
    (hs : x.network.Step e n) (hn : ∀ s ∈ x.server.sockets, e.subject? ≠ some s) :
    Stands l q (tr ++ [(x, some e)]) { x with network := n }
      (Network.Moment.joins? l.own.endpoint (x.network, e)) := by
  cases h with
  | nobody hd hl hq ht =>
    have hc := change_of_step hs
    have hsub : e.subject? ≠ some l.handle.socket := by
      refine hn _ ?_
      rw [hd]
      exact List.mem_singleton_self _
    have hl' := (slot_frame hc (lt_of_slot hl (by simp)) hsub).trans hl
    have ht' : turns (tr ++ [(x, some e)]) = 0 := by rw [turns_other, ht]
    unfold Network.Moment.joins?
    cases hcon : e.connects? with
    | none =>
      refine .nobody hd hl' ((waitingIn_frame ho hc hl hsub ?_).trans hq) ht'
      simp [hcon]
    | some z =>
      obtain ⟨t, target⟩ := z
      dsimp only
      by_cases he : target.endpoint = l.own.endpoint
      · rw [if_pos he]
        obtain ⟨own, hslot, hwait⟩ := waitingIn_of_connects ho hc hl hcon he
        obtain ⟨-, -, hconn⟩ := slot_of_connects hc hcon
        rw [hq, List.nil_append] at hwait
        obtain ⟨hsent, hclosed⟩ := hk _ (Nat.le_refl _)
        have hempty : n.pipe x.network.connections.length .callee = .empty := by
          simp [pipe, connection, hconn, Loopback.Connection.fresh, Loopback.Connection.incoming]
        have hdrains : Drains l q x.network.connections.length (tr ++ [(x, some e)]) n
            (.accepting l) := by
          refine .accepting hl' hwait rfl ?_ ht'
          rw [sent_other, closed_other, hsent, hclosed,
            pieceTo_of_unmade hw (Nat.le_refl _),
            (quiet_of_unmade hw (Nat.le_refl _)).writing, hempty]
          exact ⟨rfl, Nat.le_refl 0, rfl, rfl⟩
        rw [← hd] at hdrains
        exact .first hdrains
      · rw [if_neg he]
        refine .nobody hd hl' ((waitingIn_frame ho hc hl hsub ?_).trans hq) ht'
        intro t' target' hcon'
        cases hcon.symm.trans hcon'
        exact he

/-- Every step keeps a server sound. -/
theorem Sound.step {o : Option Event} (h : Sound l q tr x) (hl : l.handle.stage = .listening)
    (hr : 0 < l.room.toNat) (hs : Step x o y) : Sound l q (tr ++ [(x, o)]) y := by
  obtain ⟨hw, ho, hk, hstands⟩ := h
  cases hs with
  | @turn d n hstep =>
    cases hf : first? l.own.endpoint tr with
    | none =>
      rw [hf] at hstands
      exact absurd ((hstands.waits ho hl).symm.trans hstep) (by simp)
    | some k =>
      rw [hf] at hstands
      cases hstands with
      | first hdrains =>
        obtain ⟨e, ht, hs⟩ := Drain.turn_of_step (hdrains.staged hl) hstep
        have hc := change_of_step hs
        have hnext := hdrains.turn hw hr ht hs
        refine ⟨hw.step hc, ho.step hc, ?_, ?_⟩
        · intro i hi
          rw [sent_turn, closed_turn]
          exact hk i (Nat.le_trans (length_connections_le hc) hi)
        · rw [first?_turn, hf]
          exact .first hnext
  | @other e n hs hn =>
    have hc := change_of_step hs
    refine ⟨hw.step hc, ho.step hc, ?_, ?_⟩
    · intro i hi
      have hi := Nat.le_trans (length_connections_le hc) hi
      obtain ⟨hsent, hclosed⟩ := hk i hi
      rw [sent_other, closed_other, hsent, hclosed, pieceTo_of_unmade hw hi,
        (quiet_of_unmade hw hi).writing]
      exact ⟨rfl, rfl⟩
    · rw [first?_other]
      cases hf : first? l.own.endpoint tr with
      | none =>
        rw [hf] at hstands
        exact hstands.other hw ho hk hs hn
      | some k =>
        rw [hf] at hstands
        cases hstands with
        | first hdrains => exact .first (hdrains.frame hw ho hr hs hn)

theorem sound_of_run {l : Listener Nat} {q : Nat} (hl : l.handle.stage = .listening)
    (hr : 0 < l.room.toNat) (hx : Sound l q [] x) (h : Run x tr y) : Sound l q tr y := by
  induction h with
  | nil => exact hx
  | snoc _ hs ih => exact ih.step hl hr hs

/-! ### Outcomes -/

theorem Reports.mono {cs : List (List UInt8)} {prompt prompt' : Prop} {r : DrainReport}
    (h : Reports l cs prompt reads r) (hp : prompt' → prompt) : Reports l cs prompt' reads r :=
  { h with exact := fun hx => h.exact (hp hx) }

/-- There is a receive for every byte at the most, so that a word that can count the bytes can
count the receives. -/
theorem Done.reports {pipe : Pipe} {bytes : Nat} (h : Done l k tr pipe bytes reads)
    (hr : 0 < l.room.toNat) (peer : Descriptor) :
    Reports l (sent k tr) (Prompt k tr) reads ⟨l.own, peer, .ofNat bytes, .ofNat reads⟩ := by
  have hsum : bytes = ((sent k tr).map List.length).sum := by rw [h.taken, List.length_flatten]
  have hrest : roomfuls l.room.toNat ((sent k tr).flatten.length - bytes) = 0 := by
    rw [h.taken, Nat.sub_self, roomfuls_zero hr]
  have hmost := h.counted.most
  rw [hrest, Nat.add_zero] at hmost
  refine ⟨rfl, by rw [hsum], rfl, ?_, ?_, hmost, ?_, ?_⟩
  · intro hword
    have hle : reads ≤ ((sent k tr).map List.length).sum :=
      Nat.le_trans hmost (List.sum_le_sum fun c _ => roomfuls_le hr c.length)
    rw [hsum]
    exact ⟨UInt64.toNat_ofNat_of_lt' hword,
      UInt64.toNat_ofNat_of_lt' (Nat.lt_of_le_of_lt hle hword)⟩
  · rw [← hsum, roomfuls_le_iff hr]
    exact h.counted.least
  · intro hp
    have hexact := h.counted.exact hp
    rw [hrest, Nat.add_zero, List.length_flatten] at hexact
    exact hexact
  · intro hempty
    rw [hsum.trans (sum_map_of_empty rfl hempty)]
    rw [sum_map_of_empty (roomfuls_zero hr) hempty] at hmost
    rw [Nat.le_zero.mp hmost]
    exact ⟨rfl, rfl⟩

theorem Settled.closed {pipe : Pipe} (h : Settled l k tr pipe t z) (hb : l.room ≤ largestBuffer) :
    closed k tr = true := by
  cases h with
  | drained _ hd => exact hd.closed
  | panicked hlt => exact absurd hlt (UInt64.not_lt.mpr hb)

theorem Settled.left {pipe : Pipe} (h : Settled l k tr pipe t z) (hr : 0 < l.room.toNat) :
    Left l k tr z := by
  cases h with
  | drained hb hd => exact .drained hb hd.closed (hd.reports hr _)
  | panicked hlt => exact .panicked hlt

/-- A server that is done with its caller has taken a turn for each receive, and three besides. -/
theorem Settled.le {pipe : Pipe} (h : Settled l k tr pipe t z) :
    t ≤ ((sent k tr).map fun c => roomfuls l.room.toNat c.length).sum + 3 := by
  cases h with
  | drained _ hd =>
    have hmost := hd.counted.most
    omega
  | panicked _ => omega

theorem Drains.exit (h : Drains l q k tr n d) (hr : 0 < l.room.toNat) (hz : d.exit? = some z) :
    Left l k tr z := by
  cases h with
  | accepting | receiving | closing | parting | ending => simp [Drain.exit?] at hz
  | ended hd _ =>
    cases hz
    exact hd.left hr

/-- A server whose caller has stopped writing is never kept waiting, nor is one that can have no
buffer. -/
theorem Drains.goes_on (h : Drains l q k tr n d) (hw : Wired n) (hl : l.handle.stage = .listening)
    (hc : closed k tr = true ∨ largestBuffer < l.room) :
    (d.step Network.transport n).isSome ∨ d.exit?.isSome := by
  cases h with
  | accepting hslot hq _ _ _ =>
    obtain ⟨queue, hqueue, hpending⟩ := exists_queue_of_waitingIn hq
    rw [Drain.step_accepting hl, accept_eq hslot hqueue hpending]
    exact .inl rfl
  | receiving hb _ hconn hend hp _ _ _ =>
    have hc := hc.resolve_right (UInt64.not_lt.mpr hb)
    obtain ⟨near, hnear⟩ := slot_of_end? hend
    have hlt := hw.made _ (mem_ends_of_slot hend)
    obtain ⟨pipe, hread⟩ := Pipe.read_of_closed (hp.writeClosed.trans hc) l.room.toNat
    rw [Drain.step_receiving hconn, recv_eq hnear hlt, hread]
    cases (n.pipe k .callee).buffer.take l.room.toNat <;> exact .inl rfl
  | closing _ _ hconn hend _ _ =>
    obtain ⟨near, hnear⟩ := slot_of_end? hend
    rw [Drain.step_closing hconn, shutdown_eq hnear]
    exact .inl rfl
  | parting => exact .inl rfl
  | ending => exact .inl rfl
  | ended => exact .inr rfl

/-- The last thing that a server does is to give its listener up, and with it its endpoint. -/
theorem Drains.releases (h : Drains l q k tr n d) (hl : l.handle.stage = .listening)
    (hs : d.step Network.transport n = some (d', n')) (hz : d'.exit? = some z) :
    n'.slot l.handle.socket = .closed ∧ n'.registry.has l.own.endpoint = false := by
  obtain ⟨e, ht, hstep⟩ := Drain.turn_of_step (h.staged hl) hs
  cases ht with
  | left s rest _ =>
    cases h with
    | parting => simp [Drain.exit?] at hz
    | ending hslot _ _ =>
      cases hstep
      refine ⟨by rw [slot_drop, if_pos rfl], ?_⟩
      rw [drop_registry, hslot]
      simp [Slot.holding?, Loopback.Registry.has, Loopback.Registry.get?_erase]
  | accepted l s peer =>
    unfold Drain.met at hz
    split at hz <;> simp [Drain.exit?] at hz
  | _ => simp [Drain.exit?] at hz

/-- A server takes one turn for each receive, and five besides. -/
theorem Drains.turns_le (h : Drains l q k tr n d) :
    turns tr ≤ ((sent k tr).map fun c => roomfuls l.room.toNat c.length).sum + 5 := by
  cases h with
  | accepting _ _ _ _ ht => omega
  | receiving _ _ _ _ _ hcount _ ht =>
    have hmost := hcount.most
    omega
  | closing _ _ _ _ hd ht =>
    have hmost := hd.counted.most
    omega
  | parting _ _ hd ht | ending _ hd ht | ended hd ht =>
    have hmost := hd.le
    omega

/-- What is sent before the caller has stopped writing is taken, unless the server has panicked. -/
theorem Drains.send {s : Nat} {own : Descriptor} (h : Drains l q k tr n d) (hw : Wired n)
    (hb : l.room ≤ largestBuffer) (hc : closed k tr = false)
    (hs : n.slot s = .connected own k .caller) (data : List UInt8) :
    ∃ m, n.send s data = some (.ok data.length, m) := by
  have hopen : (n.pipe k .callee).writeClosed = false ∧ (n.pipe k .callee).readClosed = false := by
    cases h with
    | accepting _ _ _ hp _ | receiving _ _ _ _ hp _ _ _ =>
      exact ⟨hp.writeClosed.trans hc, hp.readClosed⟩
    | closing _ _ _ _ hd _ => exact absurd (hd.closed.symm.trans hc) (by simp)
    | parting _ _ hd _ | ending _ hd _ | ended hd _ =>
      exact absurd ((hd.closed hb).symm.trans hc) (by simp)
  rcases send_cases hs (hw.made _ (mem_ends_of_slot (end?_of_slot hs))) data with
    ⟨m, hm, -⟩ | ⟨-, hx | hx⟩
  · exact ⟨m, hm⟩
  · exact absurd (hx.symm.trans hopen.1) (by simp)
  · exact absurd (hx.symm.trans hopen.2) (by simp)

theorem Stands.drains (h : Stands l q tr ⟨d, n⟩ (some k)) : Drains l q k tr n d := by
  cases h with
  | first h => exact h

/-- What a server has come to by a turn of its own it had come to before. -/
theorem Left.of_turn (h : Left l k (tr ++ [(x, none)]) z) : Left l k tr z := by
  cases h with
  | drained hb hc hr =>
    rw [closed_turn] at hc
    rw [sent_turn] at hr
    exact .drained hb hc (hr.mono fun hp => hp.turn _)
  | panicked hlt => exact .panicked hlt

/-- Left alone, a server comes to its end whose caller has stopped writing, or that can have no
buffer. -/
theorem Sound.advance (hl : l.handle.stage = .listening) (hr : 0 < l.room.toNat)
    (h : Sound l q tr ⟨d, n⟩) (hf : first? l.own.endpoint tr = some k)
    (hc : closed k tr = true ∨ largestBuffer < l.room) :
    ∃ z m, d.advance Network.transport n = (.leaving [] z, m) ∧ Left l k tr z ∧
      (d.exit? = none → m.registry.has l.own.endpoint = false) := by
  fun_induction Drain.advance Network.transport d n generalizing tr with
  | case1 d n hstep =>
    have hstands := h.stands
    rw [hf] at hstands
    have hdrains := hstands.drains
    rcases hdrains.goes_on h.wired hl hc with hgo | hdone
    · simp [hstep] at hgo
    · obtain ⟨z, hz⟩ := Option.isSome_iff_exists.mp hdone
      refine ⟨z, n, by rw [Drain.of_exit? hz], hdrains.exit hr hz, ?_⟩
      intro hnone
      simp [hnone] at hz
  | case2 d n d' n' hstep _ ih =>
    have hstands := h.stands
    rw [hf] at hstands
    have hnext := h.step hl hr (.turn hstep)
    obtain ⟨z, m, hadvance, hleft, hrelease⟩ := ih hnext (by rw [first?_turn, hf])
      (by rwa [closed_turn])
    refine ⟨z, m, hadvance, hleft.of_turn, ?_⟩
    intro _
    cases hz : d'.exit? with
    | none => exact hrelease hz
    | some z' =>
      have hfree := (hstands.drains.releases hl hstep hz).2
      rw [Drain.of_exit? hz, Drain.advance_eq] at hadvance
      cases hadvance
      exact hfree

/-- What holds of a server at any moment of a run. Its peer is whoever connects first; it takes all
that the peer sends before it stops writing; it ends once the peer has stopped, if it is left alone
then, and not before; at its end it has given its endpoint back. A server that can have no buffer
hears nobody: it panics over its peer, and gives its endpoint back all the same. -/
structure Keeps (l : Listener Nat) (tr : List Moment) (x : Sink) : Prop where
  heard : ∀ l' conn peer bytes reads, x.server = .receiving l' conn peer bytes reads →
    l.room ≤ largestBuffer ∧ ∃ k, first? l.own.endpoint tr = some k ∧
      (x.network.slot conn.socket).end? = some (k, .callee)
  taken : ∀ k s own data, first? l.own.endpoint tr = some k → closed k tr = false →
    l.room ≤ largestBuffer → x.network.slot s = .connected own k .caller →
    ∃ m, x.network.send s data = some (.ok data.length, m)
  bounded : ∀ k, first? l.own.endpoint tr = some k →
    turns tr ≤ ((sent k tr).map fun c => roomfuls l.room.toNat c.length).sum + 5
  awake : ∀ k, first? l.own.endpoint tr = some k →
    closed k tr = true ∨ largestBuffer < l.room →
    (x.server.step Network.transport x.network).isSome ∨ x.server.exit?.isSome
  ends : ∀ k, first? l.own.endpoint tr = some k →
    closed k tr = true ∨ largestBuffer < l.room →
    ∃ z m, x.server.advance Network.transport x.network = (.leaving [] z, m) ∧ Left l k tr z ∧
      (x.server = .accepting l → l.acceptAndDrain Network.transport x.network = some (z, m)) ∧
      (x.server.exit? = none → m.registry.has l.own.endpoint = false)
  ended : ∀ z, x.server.exit? = some z → ∃ k, first? l.own.endpoint tr = some k ∧ Left l k tr z
  released : ∀ d m z, x.server.step Network.transport x.network = some (d, m) →
    d.exit? = some z → m.slot l.handle.socket = .closed ∧ m.registry.has l.own.endpoint = false

end Sink
end Handoff
