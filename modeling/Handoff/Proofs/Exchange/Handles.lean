import Handoff.Proofs.Exchange.Asking
import Handoff.Proofs.Exchange.Listening
import Handoff.Proofs.Exchange.Turns
import Handoff.Proofs.Loopback.Holders

/-!
Any number of handles over one network. A handle looks at its stage alone before it asks its socket.
Through every run the stage tells what the socket is, so whatever the stage admits is not out of
order for the socket. The main statement is `handles_of_run`.
-/
namespace Handoff

open Loopback (Network Side Slot)
open Loopback.Network

namespace Handle

variable {h : Handle Nat} {n n' : Network} {d : Demand} {e : Event} {r : Except Failure Unit}
  {hs : List (Handle Nat)}

/-- How a handle goes on, by what its request was answered. -/
inductive Turn (h : Handle Nat) :
    Demand → Event → Except Failure Unit → List (Handle Nat) → Prop where
  | bound (a : Descriptor) :
      Turn h (.bind a) (.answered (.bind h.socket a) (.ok ())) (.ok ())
        [{ h with stage := .bound, own := some a }]
  | unbound (a : Descriptor) (e : IoError) :
      Turn h (.bind a) (.answered (.bind h.socket a) (.error e)) (.error (.bind a e)) [h]
  | listening (backlog : UInt32) :
      Turn h (.listen backlog) (.answered (.listen h.socket backlog) (.ok ())) (.ok ())
        [{ h with stage := .listening }]
  | deaf (backlog : UInt32) (e : IoError) :
      Turn h (.listen backlog) (.answered (.listen h.socket backlog) (.error e))
        (.error (.listen h.ownOrAny backlog e)) [h]
  | accepted (s : Nat) (peer : Descriptor) :
      Turn h .accept (.answered (.accept h.socket) (.ok (s, peer))) (.ok ())
        [h, ⟨s, .accepted, h.own, some peer⟩]
  | aborted (e : IoError) :
      Turn h .accept (.answered (.accept h.socket) (.error e)) (.error (.accept h.ownOrAny e)) [h]
  | connected (a : Descriptor) :
      Turn h (.connect a) (.answered (.connect h.socket a) (.ok ())) (.ok ())
        [{ h with stage := .connected, peer := some a }]
  | refused (a : Descriptor) (e : IoError) :
      Turn h (.connect a) (.answered (.connect h.socket a) (.error e)) (.error (.connect a e)) [h]
  | sent (data : List UInt8) (k : Nat) :
      Turn h (.send data) (.answered (.send h.socket data) (.ok k)) (.ok ()) [h]
  | unsent (data : List UInt8) (e : IoError) :
      Turn h (.send data) (.answered (.send h.socket data) (.error e))
        (.error (.send h.peerOrAny e)) [h]
  | received (room : Nat) (bytes : List UInt8) :
      Turn h (.recv room) (.answered (.recv h.socket room) (.ok bytes)) (.ok ()) [h.draining]
  | cut (room : Nat) (e : IoError) :
      Turn h (.recv room) (.answered (.recv h.socket room) (.error e))
        (.error (.recv h.peerOrAny e)) [h.draining]
  | shut :
      Turn h .shutdown (.answered (.shutdown h.socket .both) (.ok ())) (.ok ())
        [{ h with stage := .shutdown }]
  | unshut (e : IoError) :
      Turn h .shutdown (.answered (.shutdown h.socket .both) (.error e))
        (.error (.shutdown h.peerOrAny e)) [h]

/-- What the stage admits is a turn of the handle and a step of the network. -/
theorem turn_of_ask (hd : d.operation.admittedIn h.stage = true)
    (ha : h.ask Network.transport d n = some (r, hs, n')) : ∃ e, Turn h d e r hs ∧ n.Step e n' := by
  rw [ask_of_admitted hd] at ha
  obtain ⟨⟨a, n₁⟩, hanswer, hsettle⟩ := Option.map_eq_some_iff.mp ha
  cases hsettle
  cases d with
  | bind x =>
    cases a with
    | error e => exact ⟨_, .unbound x e, .call hanswer⟩
    | ok => exact ⟨_, .bound x, .call hanswer⟩
  | listen backlog =>
    cases a with
    | error e => exact ⟨_, .deaf backlog e, .call hanswer⟩
    | ok => exact ⟨_, .listening backlog, .call hanswer⟩
  | accept =>
    cases a with
    | error e => exact ⟨_, .aborted e, .call hanswer⟩
    | ok a => exact ⟨_, .accepted a.1 a.2, .call hanswer⟩
  | connect x =>
    cases a with
    | error e => exact ⟨_, .refused x e, .call hanswer⟩
    | ok => exact ⟨_, .connected x, .call hanswer⟩
  | send data =>
    rw [Transport.answer, sendThrough_eq] at hanswer
    cases a with
    | error e => exact ⟨_, .unsent data e, .call (q := .send _ _) hanswer⟩
    | ok k => exact ⟨_, .sent data k, .call (q := .send _ _) hanswer⟩
  | recv room =>
    rw [Transport.answer, recvThrough_eq] at hanswer
    cases a with
    | error e => exact ⟨_, .cut room e, .call (q := .recv _ _) hanswer⟩
    | ok bytes => exact ⟨_, .received room bytes, .call (q := .recv _ _) hanswer⟩
  | shutdown =>
    cases a with
    | error e => exact ⟨_, .unshut e, .call hanswer⟩
    | ok => exact ⟨_, .shut, .call hanswer⟩

theorem Turn.subject_eq (ht : Turn h d e r hs) : e.subject? = some h.socket := by
  cases ht <;> rfl

/-- A handle keeps its socket, and one that it has accepted has the socket that is new. -/
theorem Turn.sockets_eq (ht : Turn h d e r hs) :
    hs.map Handle.socket = h.socket :: e.makes?.toList := by
  cases ht <;> simp [Event.makes?]

end Handle

/-! ### What a stage tells -/

/-- What the socket of a handle in a stage is. -/
def Stage.Tells (n : Network) (s : Nat) : Stage → Prop
  | .created => n.slot s = .fresh
  | .bound => ∃ own, n.slot s = .bound own
  | .listening => ∃ own q, n.slot s = .listening own q
  | .accepted | .draining | .connected => ∃ own c side, n.slot s = .connected own c side
  | .shutdown => ∃ own c side, n.slot s = .connected own c side ∧
      (n.pipe c side).readClosed = true ∧ (n.pipe c side.other).writeClosed = true

/-- The stage of a handle tells what its socket is. -/
def Handle.Wraps (h : Handle Nat) (n : Network) : Prop := h.stage.Tells n h.socket

/-- What a socket has to be for an operation to be in order. -/
def Operation.InOrder (n : Network) (s : Nat) : Operation → Prop
  | .bind | .connect => n.slot s = .fresh
  | .listen => ∃ own, n.slot s = .bound own
  | .accept => ∃ own q, n.slot s = .listening own q
  | .send | .recv | .shutdown => ∃ own c side, n.slot s = .connected own c side

namespace Stage

variable {n n' : Network} {s : Nat} {g : Stage} {e : Event}

/-- What a stage admits is in order for the socket. -/
theorem Tells.inOrder {op : Operation} (h : g.Tells n s) (hop : op.admittedIn g = true) :
    op.InOrder n s := by
  cases op <;> cases g <;> first | exact h | simp [Operation.admittedIn, isConnection] at hop

theorem Tells.lt (h : g.Tells n s) : s < n.slots.length := by
  have hc : n.slot s ≠ .closed := by
    intro hc
    cases g <;> simp [Tells, hc] at h
  exact lt_of_slot rfl hc

/-- A socket that stays as it is is what it was told to be. Its pipes stay closed. -/
theorem Tells.keep (h : g.Tells n s) (hw : Wired n) (hc : Change n e n')
    (hs : n'.slot s = n.slot s) : g.Tells n' s := by
  cases g with
  | shutdown =>
    obtain ⟨own, c, side, hslot, hr, hwr⟩ := h
    exact ⟨own, c, side, hs.trans hslot, (move_of_change hw hc c side).readClosed hr,
      (move_of_change hw hc c side.other).writeClosed hwr⟩
  | created | bound | listening | accepted | draining | connected =>
    simpa only [Tells, hs] using h

end Stage

namespace Loopback.Network

variable {n n' : Network} {s : Nat}

/-- A socket that has been shut down has both pipes closed. -/
theorem closed_of_shutdown {own : Descriptor} {c : Nat} {side : Side} (hw : Wired n)
    (hs : n.slot s = .connected own c side) (h : n.shutdown s .both = some (.ok (), n')) :
    n'.slot s = .connected own c side ∧ (n'.pipe c side).readClosed = true ∧
      (n'.pipe c side.other).writeClosed = true := by
  have hl : c < n.connections.length := hw.made _ (mem_ends_of_slot (end?_of_slot hs))
  rw [shutdown_eq hs] at h
  obtain rfl := (Prod.mk.inj (Option.some.inj h)).2
  refine ⟨hs, ?_, ?_⟩
  · rw [pipe_shut rfl hl]
    simp [Pipe.closing]
  · rw [pipe_shut rfl hl]
    simp [Pipe.closing, other_other]

end Loopback.Network

namespace Handle

variable {h k : Handle Nat} {n n' : Network} {d : Demand} {e : Event} {r : Except Failure Unit}
  {hs : List (Handle Nat)}

theorem Wraps.draining (hwr : h.Wraps n) : h.draining.Wraps n := by
  unfold Handle.draining
  split
  · rename_i hg
    rwa [Wraps, hg] at hwr
  · exact hwr

/-- After a turn the stage of the handle still tells what its socket is, and so does that of a
handle it has accepted. -/
theorem wraps_of_turn (hw : Wired n) (ho : Owned n) (hd : d.operation.admittedIn h.stage = true)
    (hwr : h.Wraps n) (ht : Turn h d e r hs) (hstep : n.Step e n') : ∀ k ∈ hs, k.Wraps n' := by
  have hc := change_of_step hstep
  have hl : h.socket < n.slots.length := hwr.lt
  -- a request that fails, or that only moves bytes, leaves the socket as it is
  have hsame (hslots : n'.slots = n.slots) : h.Wraps n' :=
    hwr.keep hw hc (by rw [slot, hslots, slot])
  cases ht with
  | unbound | deaf | aborted | refused | unsent | unshut =>
    simpa using hsame (slots_of_error hc)
  | cut => simpa using (hsame (slots_of_error hc)).draining
  | sent => simpa using hsame (slots_of_transfer hc rfl)
  | received => simpa using (hsame (slots_of_transfer hc rfl)).draining
  | bound a =>
    obtain ⟨own, hslot, -⟩ := slot_of_bind hl hstep.answer
    simpa [Wraps, Stage.Tells] using ⟨own, hslot⟩
  | listening backlog =>
    obtain ⟨own, hslot⟩ := hwr.inOrder hd
    have hnew := (slot_of_listen hslot hstep.answer).2
    simpa [Wraps, Stage.Tells] using ⟨_, _, hnew⟩
  | accepted s peer =>
    obtain ⟨own, q, hslot⟩ := hwr.inOrder hd
    obtain ⟨p, -, -, hr, hslots⟩ := of_accept ho hslot hstep.answer
    cases hr
    have hkept : h.Wraps n' := by
      refine hwr.keep hw hc ?_
      rw [slot_of_slots_append hslots, if_neg (Nat.ne_of_lt hl)]
    have hnew : n'.slot n.slots.length = .connected p.own p.connection .callee := by
      rw [slot_of_slots_append hslots, if_pos rfl]
    have hnew : Wraps ⟨n.slots.length, .accepted, h.own, some p.peer⟩ n' := ⟨_, _, _, hnew⟩
    simpa [hnew] using hkept
  | connected a =>
    obtain ⟨own, hslot, -⟩ := slot_of_connects hc rfl
    simpa [Wraps, Stage.Tells] using ⟨own, _, _, hslot⟩
  | shut =>
    obtain ⟨own, c, side, hslot⟩ := hwr.inOrder hd
    simpa [Wraps, Stage.Tells] using ⟨own, c, side, closed_of_shutdown hw hslot hstep.answer⟩

/-- What the stage admits fails only when an address is taken, when a caller is refused or when the
peer does not read any more. -/
theorem error_of_turn {f : Failure} (hw : Wired n) (ho : Owned n)
    (hd : d.operation.admittedIn h.stage = true) (hwr : h.Wraps n)
    (ht : Turn h d e (.error f) hs) (hstep : n.Step e n') :
    (∃ a, d = .bind a ∧ f = .bind a (.plain .addrInUse)) ∨
    (∃ a, d = .connect a ∧ f = .connect a (.plain .connectionRefused)) ∨
    (∃ data, d = .send data ∧ f = .send h.peerOrAny (.plain .brokenPipe)) := by
  have hconn {s : Nat} (hslot : ∃ own c side, n.slot s = .connected own c side) :
      ∃ own c side, n.slot s = .connected own c side ∧ c < n.connections.length := by
    obtain ⟨own, c, side, hslot⟩ := hslot
    exact ⟨own, c, side, hslot, hw.made _ (mem_ends_of_slot (end?_of_slot hslot))⟩
  cases ht with
  | unbound a e =>
    exact .inl ⟨a, rfl, by rw [error_of_bind (hwr.inOrder hd) hstep.answer]⟩
  | deaf backlog e =>
    obtain ⟨own, hslot⟩ := hwr.inOrder hd
    simpa using (slot_of_listen hslot hstep.answer).1
  | aborted e =>
    obtain ⟨own, q, hslot⟩ := hwr.inOrder hd
    obtain ⟨p, -, -, hr, -⟩ := of_accept ho hslot hstep.answer
    cases hr
  | refused a e =>
    have hslot : n.slot h.socket = Slot.ofCaller none := hwr.inOrder hd
    exact .inr (.inl ⟨a, rfl, by rw [error_of_connect hslot hstep.answer]⟩)
  | unsent data e =>
    obtain ⟨own, c, side, hslot, hlt⟩ := hconn (hwr.inOrder hd)
    exact .inr (.inr ⟨data, rfl, by rw [(error_of_send hslot hlt hstep.answer).1]⟩)
  | cut room e =>
    obtain ⟨own, c, side, hslot, hlt⟩ := hconn (hwr.inOrder hd)
    obtain ⟨bytes, hr, -⟩ := of_recv hslot hlt hstep.answer
    cases hr
  | unshut e =>
    obtain ⟨own, c, side, hslot, -⟩ := hconn (hwr.inOrder hd)
    exact absurd hstep.answer (not_error_of_shutdown hslot)

theorem network_of_localAddr {a : Option Descriptor}
    (ha : h.localAddr Network.transport n = some (a, n')) : n' = n := by
  have hcall : Network.transport.call (.localAddr h.socket) n = n.localAddr h.socket := rfl
  simp only [Handle.localAddr, hcall] at ha
  split at ha
  · simp at ha
  · cases ha
    exact eq_of_localAddr ‹_›
  · cases ha
    exact eq_of_localAddr ‹_›

end Handle

/-! ### Runs -/

/-- The handles that are there, and the network under them. -/
structure Handles where
  owned : List (Handle Nat)
  network : Network

namespace Handles

def start (cid : UInt32) : Handles := ⟨[], Network.ofCid cid⟩

/-- What can be done with handles: one is made, is asked for something or for its address, or is
given up. -/
inductive Step (w : Handles) : Handles → Prop where
  | create {r : Except Failure (Handle Nat)} {n : Network}
      (h : Handle.create Network.transport w.network = some (r, n)) :
      Step w ⟨r.toOption.toList ++ w.owned, n⟩
  | ask (before : List (Handle Nat)) {h : Handle Nat} {after hs : List (Handle Nat)} (d : Demand)
      {r : Except Failure Unit} {n : Network} (hw : w.owned = before ++ h :: after)
      (ha : h.ask Network.transport d w.network = some (r, hs, n)) :
      Step w ⟨before ++ hs ++ after, n⟩
  | localAddr {h : Handle Nat} {a : Option Descriptor} {n : Network} (hw : h ∈ w.owned)
      (ha : h.localAddr Network.transport w.network = some (a, n)) :
      Step w ⟨w.owned, n⟩
  | drop (before : List (Handle Nat)) {h : Handle Nat} {after : List (Handle Nat)}
      (hw : w.owned = before ++ h :: after) :
      Step w ⟨before ++ after, Network.transport.release h.socket w.network⟩

/-- What handles can come to that were made over a new network. -/
inductive Run (cid : UInt32) : Handles → Prop where
  | start : Run cid (start cid)
  | snoc {w w' : Handles} (h : Run cid w) (hs : Step w w') : Run cid w'

/-- Handles that have sockets of their own, which are what their stages tell. -/
structure Sound (w : Handles) : Prop where
  wired : Wired w.network
  owns : Owned w.network
  nodup : (w.owned.map Handle.socket).Nodup
  wraps : ∀ h ∈ w.owned, h.Wraps w.network

variable {w w' : Handles} {cid : UInt32} {n : Network} {e : Event} {h k : Handle Nat}
  {before after took : List (Handle Nat)}

theorem sound_start (cid : UInt32) : Sound (start cid) where
  wired := wired_ofCid cid
  owns := owned_ofCid cid
  nodup := List.nodup_nil
  wraps := by simp [start]

namespace Sound

/-- The handles beside one have other sockets. -/
theorem apart (hs : Sound w) (hw : w.owned = before ++ h :: after) :
    ((before ++ after).map Handle.socket).Nodup ∧
      ∀ k ∈ before ++ after, k ∈ w.owned ∧ k.socket ≠ h.socket := by
  have hn := hs.nodup
  rw [hw, (List.perm_middle.map _).nodup_iff, List.map_cons, List.nodup_cons] at hn
  refine ⟨hn.2, ?_⟩
  intro k hk
  refine ⟨hw ▸ (List.perm_middle.mem_iff.mpr (List.mem_cons_of_mem h hk)), ?_⟩
  intro he
  exact hn.1 (List.mem_map.mpr ⟨k, hk, he⟩)

/-- A step on a socket leaves the handles alone that have another. -/
theorem frame (hs : Sound w) (hstep : w.network.Step e n) (hk : k ∈ w.owned)
    (he : e.subject? ≠ some k.socket) : k.Wraps n :=
  have hc := change_of_step hstep
  (hs.wraps k hk).keep hs.wired hc (slot_frame hc (hs.wraps k hk).lt he)

/-- Handles that took part in a step, beside those that it left alone. -/
theorem of_step {took rest owned : List (Handle Nat)} (hs : Sound w)
    (hstep : w.network.Step e n) (hp : owned.Perm (took ++ rest))
    (hrest : (rest.map Handle.socket).Nodup)
    (hleft : ∀ k ∈ rest, k ∈ w.owned ∧ e.subject? ≠ some k.socket)
    (htook : (took.map Handle.socket).Nodup)
    (hown : ∀ k ∈ took, e.subject? = some k.socket ∨ e.makes? = some k.socket)
    (hwr : ∀ k ∈ took, k.Wraps n) : Sound ⟨owned, n⟩ where
  wired := hs.wired.step (change_of_step hstep)
  owns := hs.owns.step (change_of_step hstep)
  nodup := by
    rw [(hp.map _).nodup_iff, List.map_append, List.nodup_append]
    refine ⟨htook, hrest, ?_⟩
    intro s hs' t ht
    obtain ⟨k, hk, rfl⟩ := List.mem_map.mp hs'
    obtain ⟨j, hj, rfl⟩ := List.mem_map.mp ht
    obtain ⟨hmem, hother⟩ := hleft j hj
    rcases hown k hk with hsub | hnew
    · exact fun he => hother (he ▸ hsub)
    · -- a new socket comes after all that were there
      have hlt := (hs.wraps j hmem).lt
      rw [(length_slots_of_makes (change_of_step hstep) hnew).1]
      exact Nat.ne_of_gt hlt
  wraps := by
    intro k hk
    rcases List.mem_append.mp (hp.mem_iff.mp hk) with hk | hk
    · exact hwr k hk
    · exact hs.frame hstep (hleft k hk).1 (hleft k hk).2

theorem create {r : Except Failure (Handle Nat)} (hs : Sound w)
    (h : Handle.create Network.transport w.network = some (r, n)) :
    Sound ⟨r.toOption.toList ++ w.owned, n⟩ := by
  have hmade : w.network.Step (.answered .socket (.ok w.network.slots.length))
      { w.network with slots := w.network.slots ++ [.fresh] } := .call rfl
  cases h
  refine hs.of_step hmade (List.Perm.refl _) hs.nodup (fun k hk => ⟨hk, by simp [Event.subject?]⟩)
    (List.nodup_singleton _) ?_ ?_
  · intro k hk
    obtain rfl := List.mem_singleton.mp hk
    exact .inr rfl
  · intro k hk
    obtain rfl := List.mem_singleton.mp hk
    change Network.slot _ w.network.slots.length = .fresh
    rw [slot_of_slots_append rfl, if_pos rfl]

theorem ask {d : Demand} {r : Except Failure Unit} (hs : Sound w)
    (hw : w.owned = before ++ h :: after)
    (ha : h.ask Network.transport d w.network = some (r, took, n)) :
    Sound ⟨before ++ took ++ after, n⟩ := by
  obtain ⟨hrest, hleft⟩ := hs.apart hw
  have hmem : h ∈ w.owned := by simp [hw]
  cases hd : d.operation.admittedIn h.stage with
  | false =>
    rw [Handle.ask_of_not_admitted hd] at ha
    cases ha
    rw [List.append_assoc, List.singleton_append, ← hw]
    exact hs
  | true =>
    obtain ⟨e, ht, hstep⟩ := Handle.turn_of_ask hd ha
    have hsub := ht.subject_eq
    have hsockets := ht.sockets_eq
    refine hs.of_step hstep ?_ hrest ?_ ?_ ?_
      (Handle.wraps_of_turn hs.wired hs.owns hd (hs.wraps h hmem) ht hstep)
    · rw [← List.append_assoc]
      exact List.perm_append_comm.append_right _
    · intro k hk
      rw [hsub]
      exact ⟨(hleft k hk).1, fun he => (hleft k hk).2 (Option.some.inj he).symm⟩
    · rw [hsockets]
      cases hm : e.makes? with
      | none => simp
      | some s =>
        have hlt := (hs.wraps h hmem).lt
        rw [← (length_slots_of_makes (change_of_step hstep) hm).1] at hlt
        simp [Nat.ne_of_lt hlt]
    · intro k hk
      have hk := hsockets ▸ List.mem_map_of_mem hk
      rcases List.mem_cons.mp hk with he | hk
      · exact .inl (hsub.trans (congrArg some he.symm))
      · exact .inr (Option.mem_toList.mp hk)

theorem drop (hs : Sound w) (hw : w.owned = before ++ h :: after) :
    Sound ⟨before ++ after, w.network.drop h.socket⟩ := by
  obtain ⟨hrest, hleft⟩ := hs.apart hw
  have hp : (before ++ after).Perm ([] ++ (before ++ after)) := List.Perm.refl _
  refine hs.of_step (.drop h.socket) hp hrest ?_ List.nodup_nil (by simp) (by simp)
  intro k hk
  exact ⟨(hleft k hk).1, fun he => (hleft k hk).2 (Option.some.inj he).symm⟩

theorem step (hs : Sound w) (h : Step w w') : Sound w' := by
  cases h with
  | create h => exact hs.create h
  | ask before d hw ha => exact hs.ask hw ha
  | localAddr hw ha =>
    rw [Handle.network_of_localAddr ha]
    exact hs
  | drop before hw => exact hs.drop hw

end Sound

theorem sound_of_run (h : Run cid w) : Sound w := by
  induction h with
  | start => exact sound_start cid
  | snoc _ hs ih => exact ih.step hs

/-- Through every run the stage of each handle tells what its socket is. So making a handle never
fails, and of what the stage admits a bind fails only when the address is in use, a connect only
when it is refused, a send only when the pipe is broken, and nothing else fails. -/
theorem handles_of_run (h : Run cid w) :
    (∀ k ∈ w.owned, k.Wraps w.network) ∧
    (∃ k n, Handle.create Network.transport w.network = some (.ok k, n)) ∧
    ∀ k ∈ w.owned, ∀ d f hs n,
      k.ask Network.transport d w.network = some (.error f, hs, n) →
      d.operation.admittedIn k.stage = true →
      (∃ a, d = .bind a ∧ f = .bind a (.plain .addrInUse)) ∨
      (∃ a, d = .connect a ∧ f = .connect a (.plain .connectionRefused)) ∨
      (∃ data, d = .send data ∧ f = .send k.peerOrAny (.plain .brokenPipe)) := by
  have hs := sound_of_run h
  refine ⟨hs.wraps, ⟨_, _, rfl⟩, ?_⟩
  intro k hk d f ks n ha hd
  obtain ⟨e, ht, hstep⟩ := Handle.turn_of_ask hd ha
  exact Handle.error_of_turn hs.wired hs.owns hd (hs.wraps k hk) ht hstep

/-- A client has been accepted and has shut down. Its end and the accepted one are connected, and a
new handle that is bound where the server listens fails as told. -/
theorem handles_of_served_run :
    ∃ w, Run 3 w ∧ w.owned.map Handle.stage = [.created, .shutdown, .listening, .accepted] ∧
      (∀ k ∈ w.owned, k.Wraps w.network) ∧
      ∃ k ∈ w.owned, ∃ f hs n,
        k.ask Network.transport (.bind (Descriptor.bind 3 1234)) w.network =
          some (.error f, hs, n) ∧ f = .bind (Descriptor.bind 3 1234) (.plain .addrInUse) := by
  have h := (Run.start : Run 3 (start 3))
    |>.snoc (.create rfl)
    |>.snoc (.ask [] (.bind (Descriptor.bind 3 1234)) rfl rfl)
    |>.snoc (.ask [] (.listen 1) rfl rfl)
    |>.snoc (.create rfl)
    |>.snoc (.ask [] (.connect (Descriptor.remote 3 1234)) rfl rfl)
    |>.snoc (.ask [_] .accept rfl rfl)
    |>.snoc (.ask [] .shutdown rfl rfl)
    |>.snoc (.create rfl)
  obtain ⟨hwraps, -, hfails⟩ := handles_of_run h
  refine ⟨_, h, rfl, hwraps, _, List.mem_cons_self, _, _, _, rfl, ?_⟩
  rcases hfails _ List.mem_cons_self (.bind (Descriptor.bind 3 1234)) _ _ _ rfl rfl with
    ⟨a, ha, hf⟩ | ⟨a, ha, -⟩ | ⟨data, ha, -⟩
  · cases ha
    exact hf
  · cases ha
  · cases ha

end Handles
end Handoff
