import Handoff.Proofs.Exchange.Handles

/-!
Data flows one way only: from the end that connected to the end that was accepted. A handle that was
accepted is never let to send, so the pipe to a caller stays empty through every run, and the caller
is told the end only after that pipe was cut. The history of a run is the list of its steps. The
main statement is `one_way_of_course`.
-/
namespace Handoff

open Loopback (Network Side Slot Pipe)
open Loopback.Network

/-- Which end of a connection a handle in a stage has. A connected one reads from its pipe still. -/
def Stage.Faces (n : Network) (s : Nat) : Stage → Prop
  | .connected => ∃ own c, n.slot s = .connected own c .caller ∧
      (n.pipe c .caller).readClosed = false
  | .accepted | .draining => ∃ own c, n.slot s = .connected own c .callee
  | .created | .bound | .listening | .shutdown => True

namespace Stage

variable {n n' : Network} {s : Nat} {g : Stage} {e : Event}

theorem Faces.keep (h : g.Faces n s) (hw : Wired n) (hc : Change n e n')
    (hs : n'.slot s = n.slot s)
    (hr : ∀ c, (n.slot s).end? = some (c, .caller) →
      Moment.stopsReading c .caller (n, e) = false) : g.Faces n' s := by
  cases g with
  | connected =>
    obtain ⟨own, c, hslot, hopen⟩ := h
    refine ⟨own, c, hs.trans hslot, ?_⟩
    rw [(move_of_change hw hc c .caller).sides.1, hopen, hr c (end?_of_slot hslot)]
    rfl
  | accepted | draining =>
    obtain ⟨own, c, hslot⟩ := h
    exact ⟨own, c, hs.trans hslot⟩
  | created | bound | listening | shutdown => trivial

/-- A handle keeps its end while something happens to another socket. -/
theorem Faces.frame (h : g.Faces n s) (hw : Wired n) (hc : Change n e n')
    (hl : s < n.slots.length) (he : e.subject? ≠ some s) : g.Faces n' s :=
  h.keep hw hc (slot_frame hc hl he) fun _ hend => (quiet_of_held hw hend he).reading

end Stage

namespace Handle

variable {h : Handle Nat} {n n' : Network} {d : Demand} {e : Event} {r : Except Failure Unit}
  {hs : List (Handle Nat)}

theorem faces_draining (hf : h.stage.Faces n h.socket) :
    h.draining.stage.Faces n h.draining.socket := by
  unfold draining
  split
  · rename_i hg
    rwa [hg] at hf
  · exact hf

/-- After a turn a handle has the end that its stage tells, and so has one that it has accepted. -/
theorem faces_of_turn (hw : Wired n) (ho : Owned n) (hd : d.operation.admittedIn h.stage = true)
    (hwr : h.Wraps n) (hf : h.stage.Faces n h.socket) (ht : Turn h d e r hs)
    (hstep : n.Step e n') : ∀ k ∈ hs, k.stage.Faces n' k.socket := by
  have hc := change_of_step hstep
  have hsame (hslots : n'.slots = n.slots)
      (hr : ∀ c, Moment.stopsReading c .caller (n, e) = false) : h.stage.Faces n' h.socket :=
    hf.keep hw hc (by rw [slot, hslots, slot]) fun c _ => hr c
  cases ht with
  | unbound | deaf | aborted | refused | unsent | unshut =>
    simpa using hsame (slots_of_error hc) fun _ => rfl
  | cut => simpa using faces_draining (hsame (slots_of_error hc) fun _ => rfl)
  | sent => simpa using hsame (slots_of_transfer hc rfl) fun _ => rfl
  | received => simpa using faces_draining (hsame (slots_of_transfer hc rfl) fun _ => rfl)
  | bound | listening | shut => simp [Stage.Faces]
  | accepted s peer =>
    obtain ⟨own, q, hslot⟩ := hwr.inOrder hd
    obtain ⟨p, -, -, hr, hslots⟩ := of_accept ho hslot hstep.answer
    cases hr
    have hnew : n'.slot n.slots.length = .connected p.own p.connection .callee := by
      rw [slot_of_slots_append hslots, if_pos rfl]
    have hlistens : h.stage = .listening := beq_iff_eq.mp hd
    intro k hk
    rcases List.mem_cons.mp hk with rfl | hk
    · rw [hlistens]
      trivial
    · obtain rfl := List.mem_singleton.mp hk
      exact ⟨_, _, hnew⟩
  | connected a =>
    obtain ⟨own, hslot, hconn⟩ := slot_of_connects hc rfl
    have hfresh : (n'.pipe n.connections.length .caller).readClosed = false := by
      rw [pipe, connection, hconn, List.getElem?_concat_length]
      rfl
    simpa [Stage.Faces] using ⟨own, _, hslot, hfresh⟩

end Handle

namespace Handles

variable {w w' : Handles} {cid : UInt32} {e : Event} {c : Nat}

/-- What a step of handles is that does something to the network: a new socket with its handle, a
turn that the stage of a handle admits, or the loss of a handle. -/
inductive Deed (w : Handles) : Event → Handles → Prop where
  | create {k : Handle Nat} {n : Network} (hk : k.stage = .created)
      (hstep : w.network.Step (.answered .socket (.ok k.socket)) n) :
      Deed w (.answered .socket (.ok k.socket)) ⟨k :: w.owned, n⟩
  | turn (before : List (Handle Nat)) {h : Handle Nat} {after hs : List (Handle Nat)} {d : Demand}
      {e : Event} {r : Except Failure Unit} {n : Network} (hw : w.owned = before ++ h :: after)
      (hd : d.operation.admittedIn h.stage = true)
      (ha : h.ask Network.transport d w.network = some (r, hs, n)) (ht : h.Turn d e r hs)
      (hstep : w.network.Step e n) : Deed w e ⟨before ++ hs ++ after, n⟩
  | drop (before : List (Handle Nat)) {h : Handle Nat} {after : List (Handle Nat)}
      (hw : w.owned = before ++ h :: after) :
      Deed w (.dropped h.socket) ⟨before ++ after, w.network.drop h.socket⟩

theorem deed_of_step (h : Step w w') : w' = w ∨ ∃ e, Deed w e w' := by
  cases h with
  | create h =>
    cases h
    exact .inr ⟨_, .create rfl (.call rfl)⟩
  | @ask before h after hs d r n hw ha =>
    cases hd : d.operation.admittedIn h.stage with
    | false =>
      rw [Handle.ask_of_not_admitted hd] at ha
      cases ha
      left
      rw [List.append_assoc, List.singleton_append, ← hw]
    | true =>
      obtain ⟨e, ht, hstep⟩ := Handle.turn_of_ask hd ha
      exact .inr ⟨e, .turn before hw hd ha ht hstep⟩
  | localAddr hw ha =>
    rw [Handle.network_of_localAddr ha]
    exact .inl rfl
  | drop before hw => exact .inr ⟨_, .drop before hw⟩

theorem Deed.step (h : Deed w e w') : w.network.Step e w'.network := by
  cases h with
  | create _ hstep => exact hstep
  | turn _ _ _ _ _ hstep => exact hstep
  | drop => exact .drop _

/-- That all handles have the ends that their stages tell. -/
def Facing (w : Handles) : Prop := ∀ k ∈ w.owned, k.stage.Faces w.network k.socket

theorem Deed.facing (h : Deed w e w') (hs : Sound w) (hf : Facing w) : Facing w' := by
  have hframe {k : Handle Nat} (hk : k ∈ w.owned) (he : e.subject? ≠ some k.socket) :
      k.stage.Faces w'.network k.socket :=
    (hf k hk).frame hs.wired (change_of_step h.step) (hs.wraps k hk).lt he
  cases h with
  | create hk hstep =>
    intro k hmem
    rcases List.mem_cons.mp hmem with rfl | hmem
    · rw [hk]
      trivial
    · exact hframe hmem (by simp [Event.subject?])
  | @turn before h after ks d e r n hw hd ha ht hstep =>
    obtain ⟨-, hleft⟩ := hs.apart hw
    have hmem : h ∈ w.owned := by simp [hw]
    intro k hk
    have hk : k ∈ ks ∨ k ∈ before ++ after := by
      simpa [or_assoc, or_left_comm] using hk
    rcases hk with hk | hk
    · exact Handle.faces_of_turn hs.wired hs.owns hd (hs.wraps h hmem) (hf h hmem) ht hstep k hk
    · rw [ht.subject_eq] at hframe
      exact hframe (hleft k hk).1 fun he => (hleft k hk).2 (Option.some.inj he).symm
  | @drop before h after hw =>
    obtain ⟨-, hleft⟩ := hs.apart hw
    intro k hk
    exact hframe (hleft k hk).1 fun he => (hleft k hk).2 (Option.some.inj he).symm

/-- Nothing is sent to a caller. -/
theorem Deed.sentTo_caller (h : Deed w e w') (hf : Facing w) (c : Nat) :
    Moment.sentTo c .caller (w.network, e) = [] := by
  cases h with
  | create | drop => rfl
  | @turn before h after ks d e r n hw hd ha ht hstep =>
    cases ht with
    | sent data k =>
      -- whoever may send is the caller of its connection
      have hstage : h.stage = .connected := beq_iff_eq.mp hd
      have hface := hf h (by simp [hw])
      rw [hstage] at hface
      obtain ⟨own, c', hslot, -⟩ := hface
      simp [Moment.sentTo, hslot, Slot.end?, Side.other]
    | bound | unbound | listening | deaf | accepted | aborted | connected | refused | unsent
    | received | cut | shut | unshut => rfl

/-- That a step cuts the pipe to the caller of a connection: the handle that was accepted is shut
down or given up, or the listener is given up with which the connection waits. -/
inductive Cuts (c : Nat) (u : Handles) : Handles → Prop where
  | shutdown (before : List (Handle Nat)) {k : Handle Nat} {after ks : List (Handle Nat)}
      {own : Descriptor} {n : Network} (hu : u.owned = before ++ k :: after)
      (hk : k.stage = .accepted ∨ k.stage = .draining)
      (hs : u.network.slot k.socket = .connected own c .callee)
      (ha : k.ask Network.transport .shutdown u.network = some (.ok (), ks, n)) :
      Cuts c u ⟨before ++ ks ++ after, n⟩
  | drop (before : List (Handle Nat)) {k : Handle Nat} {after : List (Handle Nat)}
      {own : Descriptor} (hu : u.owned = before ++ k :: after)
      (hs : u.network.slot k.socket = .connected own c .callee) :
      Cuts c u ⟨before ++ after, Network.transport.release k.socket u.network⟩
  | desert (before : List (Handle Nat)) {k : Handle Nat} {after : List (Handle Nat)}
      {own : Descriptor} {q : Nat} {p : Loopback.Pending} (hu : u.owned = before ++ k :: after)
      (hs : u.network.slot k.socket = .listening own q) (hp : p ∈ u.network.waitingIn q)
      (hc : p.connection = c) :
      Cuts c u ⟨before ++ after, Network.transport.release k.socket u.network⟩

theorem Deed.cuts (h : Deed w e w') (hf : Facing w)
    (hstop : Moment.stopsWriting c .callee (w.network, e) = true) : Cuts c w w' := by
  cases h with
  | create => cases hstop
  | @turn before h after ks d e r n hw hd ha ht hstep =>
    cases ht with
    | shut =>
      have hend : (w.network.slot h.socket).end? = some (c, .callee) := by
        simpa [Moment.stopsWriting] using hstop
      obtain ⟨own, hslot⟩ := slot_of_end? hend
      have hface := hf h (by simp [hw])
      refine .shutdown before hw ?_ hslot ha
      -- a connected handle has the other end
      cases hg : h.stage with
      | accepted => exact .inl rfl
      | draining => exact .inr rfl
      | connected =>
        rw [hg] at hface
        obtain ⟨own', c', hcaller, -⟩ := hface
        rw [hcaller] at hslot
        cases hslot
      | created | bound | listening | shutdown =>
        rw [hg] at hd
        cases hd
    | bound | unbound | listening | deaf | accepted | aborted | connected | refused | sent | unsent
    | received | cut | unshut => cases hstop
  | @drop before h after hw =>
    rcases yields_iff.mp hstop with hend | ⟨-, q, hq, p, hp, hc⟩
    · obtain ⟨own, hslot⟩ := slot_of_end? hend
      exact .drop before hw hslot
    · obtain ⟨own, hslot⟩ : ∃ own, w.network.slot h.socket = .listening own q := by
        cases hslot : w.network.slot h.socket with
        | listening own q' =>
          rw [hslot] at hq
          cases hq
          exact ⟨own, rfl⟩
        | fresh | bound | connected | closed => simp [hslot, Slot.queue?] at hq
      exact .desert before hw hslot hp hc

/-! ### Histories -/

/-- A run with its steps, the earliest first. -/
inductive Course (cid : UInt32) : List (Handles × Handles) → Handles → Prop where
  | start : Course cid [] (start cid)
  | snoc {tr : List (Handles × Handles)} {w w' : Handles} (h : Course cid tr w) (hs : Step w w') :
      Course cid (tr ++ [(w, w')]) w'

variable {tr : List (Handles × Handles)}

theorem Course.run (h : Course cid tr w) : Run cid w := by
  induction h with
  | start => exact .start
  | snoc _ hs ih => exact ih.snoc hs

/-- What holds of the pipes to callers after some steps. -/
structure OneWay (tr : List (Handles × Handles)) (w : Handles) : Prop where
  facing : Facing w
  empty : ∀ c, (w.network.pipe c .caller).buffer = []
  cut : ∀ c, (w.network.pipe c .caller).writeClosed = true → ∃ x ∈ tr, Cuts c x.1 x.2

theorem oneWay_start (cid : UInt32) : OneWay [] (start cid) where
  facing := by simp [Facing, start]
  empty _ := rfl
  cut _ h := by cases h

theorem OneWay.step (h : OneWay tr w) (hs : Sound w) (hstep : Step w w') :
    OneWay (tr ++ [(w, w')]) w' := by
  have hlater {c : Nat} (hx : ∃ x ∈ tr, Cuts c x.1 x.2) :
      ∃ x ∈ tr ++ [(w, w')], Cuts c x.1 x.2 := by
    obtain ⟨x, hx, hcut⟩ := hx
    exact ⟨x, List.mem_append_left _ hx, hcut⟩
  rcases deed_of_step hstep with rfl | ⟨e, hdeed⟩
  · exact ⟨h.facing, h.empty, fun c hc => hlater (h.cut c hc)⟩
  · have hmove (c : Nat) := move_of_change hs.wired (change_of_step hdeed.step) c .caller
    constructor
    · exact hdeed.facing hs h.facing
    · intro c
      exact (hmove c).buffer_eq_nil (h.empty c) (hdeed.sentTo_caller h.facing c)
    · intro c hc
      rw [(hmove c).sides.2, Bool.or_eq_true] at hc
      rcases hc with hc | hc
      · exact hlater (h.cut c hc)
      · exact ⟨(w, w'), by simp, hdeed.cuts h.facing hc⟩

theorem oneWay_of_course (h : Course cid tr w) : OneWay tr w := by
  induction h with
  | start => exact oneWay_start cid
  | snoc h hs ih => exact ih.step (sound_of_run h.run) hs

end Handles

namespace Handle

variable {k k' : Handle Nat} {n n' : Network}

theorem recv_eq (hd : Operation.recv.admittedIn k.stage = true) (room : Nat) (n : Network) :
    k.recv Network.transport room n =
      match n.recv k.socket room with
      | none => none
      | some (.error e, n) => some (.error (.recv k.peerOrAny e), k.draining, n)
      | some (.ok bytes, n) => some (.ok bytes, k.draining, n) := by
  rw [recv, if_pos hd, recvThrough_eq]
  rcases n.recv k.socket room with _ | ⟨_ | _, n⟩ <;> rfl

/-- What a connected handle receives is read from the pipe to its end. -/
theorem of_recv {own : Descriptor} {c room : Nat} {r : Except Failure (List UInt8)}
    (hk : k.stage = .connected) (hs : n.slot k.socket = .connected own c .caller)
    (hl : c < n.connections.length) (h : k.recv Network.transport room n = some (r, k', n')) :
    ∃ bytes, r = .ok bytes ∧ (n.pipe c .caller).read room = some (bytes, n'.pipe c .caller) := by
  have hd : Operation.recv.admittedIn k.stage = true := by
    rw [hk]
    rfl
  rw [recv_eq hd] at h
  cases hr : n.recv k.socket room with
  | none => simp [hr] at h
  | some x =>
    obtain ⟨a, m⟩ := x
    obtain ⟨bytes, rfl, hread⟩ := Loopback.Network.of_recv hs hl hr
    simp only [hr, Option.some.injEq, Prod.mk.injEq] at h
    obtain ⟨rfl, -, rfl⟩ := h
    exact ⟨bytes, rfl, hread⟩

end Handle

namespace Handles

variable {w : Handles} {cid : UInt32} {tr : List (Handles × Handles)}

/-- Through every run data flows only from the end that connected to the end that was accepted. The
pipe from the accepted end to the connected one is always empty. So a receive on a connected handle
that returns gives no bytes, and with room for some it returns only after the accepted end was shut
down or given up, or its listener was given up while the connection waited. A send on an accepted
handle fails out of order and changes nothing. -/
theorem one_way_of_course (h : Course cid tr w) :
    (∀ c, (w.network.pipe c .caller).buffer = []) ∧
    (∀ k ∈ w.owned, k.stage = .connected →
      ∃ own c, w.network.slot k.socket = .connected own c .caller ∧
        ∀ room r k' n, k.recv Network.transport room w.network = some (r, k', n) →
          r = .ok [] ∧ (0 < room → ∃ x ∈ tr, Cuts c x.1 x.2)) ∧
    ∀ k ∈ w.owned, k.stage = .accepted ∨ k.stage = .draining →
      (∃ own c, w.network.slot k.socket = .connected own c .callee) ∧
      ∀ data, k.ask Network.transport (.send data) w.network =
        some (.error (.illegalState "send" k.stage), [k], w.network) := by
  have hone := oneWay_of_course h
  have hsound := sound_of_run h.run
  refine ⟨hone.empty, ?_, ?_⟩
  · intro k hk hg
    have hface := hone.facing k hk
    rw [hg] at hface
    obtain ⟨own, c, hslot, hopen⟩ := hface
    have hl : c < w.network.connections.length :=
      hsound.wired.made _ (mem_ends_of_slot (end?_of_slot hslot))
    refine ⟨own, c, hslot, ?_⟩
    intro room r k' n hr
    obtain ⟨bytes, rfl, hread⟩ := Handle.of_recv hg hslot hl hr
    have hnone : bytes = [] := by
      have hb := Pipe.buffer_eq_of_read hread
      rw [hone.empty] at hb
      exact (List.append_eq_nil_iff.mp hb.symm).1
    subst hnone
    refine ⟨rfl, fun hroom => hone.cut c ?_⟩
    rcases (Pipe.of_read_eq_nil hroom hread).2 with hclosed | hclosed
    · exact hclosed
    · rw [hopen] at hclosed
      cases hclosed
  · intro k hk hg
    have hface := hone.facing k hk
    have hd : Operation.send.admittedIn k.stage = false := by
      rcases hg with hg | hg <;> rw [hg] <;> rfl
    refine ⟨?_, fun data => Handle.ask_of_not_admitted (d := .send data) hd w.network⟩
    rcases hg with hg | hg <;> rwa [hg] at hface

/-- A client whose accepted end was given up is told the end, and a step that cut its pipe is in the
history. -/
theorem one_way_of_served_run :
    ∃ tr w k n, Course 3 tr w ∧ k ∈ w.owned ∧
      k.recv Network.transport 1024 w.network = some (.ok [], k, n) ∧
      ∃ c, ∃ x ∈ tr, Cuts c x.1 x.2 := by
  have h := (Course.start : Course 3 [] (start 3))
    |>.snoc (.create rfl)
    |>.snoc (.ask [] (.bind (Descriptor.bind 3 1234)) rfl rfl)
    |>.snoc (.ask [] (.listen 1) rfl rfl)
    |>.snoc (.create rfl)
    |>.snoc (.ask [] (.connect (Descriptor.remote 3 1234)) rfl rfl)
    |>.snoc (.ask [_] .accept rfl rfl)
    |>.snoc (.drop [_, _] rfl)
  obtain ⟨-, hrecv, -⟩ := one_way_of_course h
  obtain ⟨own, c, -, hcut⟩ := hrecv _ List.mem_cons_self rfl
  have hend := hcut 1024 _ _ _ ((Handle.recv_eq rfl 1024 _).trans rfl)
  exact ⟨_, _, _, _, h, List.mem_cons_self, (Handle.recv_eq rfl 1024 _).trans rfl, c,
    hend.2 (by decide)⟩

end Handles
end Handoff
