import Handoff.Proofs.Exchange.Turns
import Handoff.Proofs.Loopback.Frame

/-!
A client over a network. Its socket is always as its next step needs it, and once it is connected,
the pipe it writes to holds what it has written and nothing else.
-/
namespace Handoff

open Loopback (Network Side Pipe Pending Queue Slot)
open Loopback.Network

namespace Delivery

variable {c : Client.Config} {p p' : Delivery Nat} {n n' : Network} {e : Event} {b k : Nat}
  {own : Descriptor}

/-- How the run of a client over a network may end. -/
inductive Ending (c : Client.Config) : Except Failure SendReport → Prop where
  | delivered (own : Option Descriptor) (h : c.payload ≠ []) :
      Ending c (.ok ⟨own, c.remote, c.payload.length⟩)
  | refused : Ending c (.error (.connect c.remote (.plain .connectionRefused)))
  | broken : Ending c (.error (.send c.remote (.plain .brokenPipe)))
  | empty (h : c.payload = []) : Ending c (.error (.nothingSent c.remote))

/-- A client's handle on a connection it asked for. -/
def Linked (c : Client.Config) (n : Network) (h : Handle Nat) : Prop :=
  h = joined c h.socket ∧ ∃ own k, n.slot h.socket = .connected own k .caller

/-- A client whose socket is as its next step needs it. -/
def Fits (c : Client.Config) (n : Network) : Delivery Nat → Prop
  | opening => True
  | connecting h => h = caller h.socket ∧ n.slot h.socket = .fresh
  | locating h | sending h _ => Linked c n h
  | closing h _ sent => Linked c n h ∧ sent = c.payload.length ∧ c.payload ≠ []
  | leaving ss o => ss.length ≤ 1 ∧ Ending c o

theorem Fits.staged (h : p.Fits c n) : p.Staged c := by
  cases p with
  | opening => trivial
  | connecting _ => exact h.1
  | locating _ => exact h.1
  | sending _ _ => exact h.1
  | closing _ _ _ => exact h.1.1
  | leaving _ _ => trivial

theorem Turn.subject (h : Turn c p e p') {s : Nat} (hs : e.subject? = some s) : s ∈ p.sockets := by
  cases h <;> simp_all [Event.subject?, sockets, caller, joined]

/-- A client that is about to ask for its address has just connected. -/
theorem Turn.of_locating {h : Handle Nat} (ht : Turn c p e (locating h)) :
    ∃ s, p = connecting (caller s) ∧ e = .answered (.connect s c.remote) (.ok ()) ∧
      h = joined c s := by
  generalize hp : locating h = p' at ht
  cases ht with
  | connected s =>
    cases hp
    exact ⟨s, rfl, rfl, rfl⟩
  | sent s own k =>
    unfold afterSend at hp
    split at hp
    · simp at hp
    · split at hp <;> simp at hp
  | _ => simp at hp

theorem sockets_afterSend (h : Handle Nat) (own : Option Descriptor) (sent : Nat) :
    (afterSend c h own sent).sockets = [h.socket] := by
  unfold afterSend
  split
  · rfl
  · split <;> rfl

theorem Turn.keeps (h : Turn c p e p') {s : Nat} (hs : s ∈ p.sockets) :
    s ∈ p'.sockets ∨ e = .dropped s := by
  cases h with
  | opened _ => simp [sockets] at hs
  | sent _ _ _ =>
    rw [sockets_afterSend]
    exact .inl hs
  | left t rest o =>
    rcases List.mem_cons.mp hs with rfl | hs
    · exact .inr rfl
    · exact .inl hs
  | _ => exact .inl hs

theorem Turn.gains (h : Turn c p e p') {s : Nat} (hs : e.makes? = some s) : s ∈ p'.sockets := by
  cases h with
  | opened t =>
    cases hs
    exact List.mem_singleton_self _
  | _ => simp [Event.makes?] at hs

/-- The only socket that a client ever gets is a new one. -/
theorem Turn.sockets (h : Turn c p e p') (hs : n.Step e n') :
    p'.sockets.Sublist p.sockets ∨
      p'.sockets = n.slots.length :: p.sockets ∧ n'.slots.length = n.slots.length + 1 := by
  cases h with
  | opened s =>
    obtain ⟨rfl, hl⟩ := length_slots_of_makes (change_of_step hs) rfl
    exact .inr ⟨rfl, hl⟩
  | connected _ => exact .inl (List.Sublist.refl _)
  | refused _ _ => exact .inl (List.Sublist.refl _)
  | located _ _ => exact .inl (List.Sublist.refl _)
  | unlocated _ _ => exact .inl (List.Sublist.refl _)
  | sent s own k => exact .inl (by rw [sockets_afterSend]; exact List.Sublist.refl _)
  | unsent _ _ _ => exact .inl (List.Sublist.refl _)
  | shut _ _ _ => exact .inl (List.Sublist.refl _)
  | unshut _ _ _ _ => exact .inl (List.Sublist.refl _)
  | left s rest o => exact .inl (List.sublist_cons_self _ _)

theorem Linked.frame {h : Handle Nat} (hl : Linked c n h)
    (hs : n'.slot h.socket = n.slot h.socket) : Linked c n' h := by
  rw [Linked, hs]
  exact hl

theorem Fits.frame (h : p.Fits c n) (hs : ∀ s ∈ p.sockets, n'.slot s = n.slot s) :
    p.Fits c n' := by
  cases p with
  | opening => trivial
  | connecting k => exact ⟨h.1, (hs k.socket (List.mem_singleton_self _)).trans h.2⟩
  | locating k => exact Linked.frame h (hs k.socket (List.mem_singleton_self _))
  | sending k _ => exact Linked.frame h (hs k.socket (List.mem_singleton_self _))
  | closing k _ _ => exact ⟨h.1.frame (hs k.socket (List.mem_singleton_self _)), h.2⟩
  | leaving _ _ => exact h

/-- A client goes on as it should, whatever the network answers. -/
theorem Fits.turn (hw : Wired n) (h : p.Fits c n) (ht : Turn c p e p') (hs : n.Step e n') :
    p'.Fits c n' := by
  have hc := change_of_step hs
  cases ht with
  | opened s =>
    have hq := hs.answer
    simp only [call, socket, Option.some.injEq, Prod.mk.injEq, Except.ok.injEq] at hq
    obtain ⟨rfl, rfl⟩ := hq
    refine ⟨rfl, ?_⟩
    rw [slot_of_slots_append rfl]
    exact if_pos rfl
  | connected s =>
    obtain ⟨own, ho, -⟩ := slot_of_connects hc rfl
    exact ⟨rfl, own, _, ho⟩
  | refused s e =>
    obtain rfl := @error_of_connect n n' s none c.remote e h.2 hs.answer
    exact ⟨Nat.le_refl 1, .refused⟩
  | located s own => exact Linked.frame h (slot_of_transfer hc rfl s)
  | unlocated s e => exact Linked.frame h (slot_of_transfer hc rfl s)
  | sent s own k =>
    obtain ⟨addr, i, hi⟩ := h.2
    have hi : n.slot s = .connected addr i .caller := hi
    have hl := hw.made _ (mem_ends_of_slot (end?_of_slot hi))
    have hk : k = c.payload.length := length_of_send hi hl hs.answer
    unfold afterSend
    split
    · rename_i h0
      exact ⟨Nat.le_refl 1, .empty (List.length_eq_zero_iff.mp (hk ▸ h0))⟩
    · rename_i h0
      rw [if_neg (by omega)]
      refine ⟨Linked.frame h (slot_of_transfer hc rfl s), hk, ?_⟩
      intro hn
      exact h0 (by rw [hk, hn]; rfl)
  | unsent s own e =>
    obtain ⟨addr, i, hi⟩ := h.2
    have hi : n.slot s = .connected addr i .caller := hi
    have hl := hw.made _ (mem_ends_of_slot (end?_of_slot hi))
    obtain ⟨rfl, -⟩ := error_of_send hi hl hs.answer
    exact ⟨Nat.le_refl 1, .broken⟩
  | shut s own k =>
    obtain ⟨-, rfl, hn⟩ := h
    exact ⟨Nat.le_refl 1, .delivered own hn⟩
  | unshut s own k e =>
    obtain ⟨⟨-, addr, i, hi⟩, -⟩ := h
    exact absurd hs.answer (not_error_of_shutdown hi)
  | left s rest o =>
    have hr := h.1
    rw [List.length_cons] at hr
    exact ⟨by omega, h.2⟩

/-- A client is never kept waiting, but when it connects. -/
theorem Fits.goes_on (hw : Wired n) (h : p.Fits c n)
    (hp : ∀ k, p = connecting k → (n.connect k.socket c.remote).isSome) :
    (p.step Network.transport c n).isSome ∨ p.outcome?.isSome := by
  cases p with
  | opening => exact .inl rfl
  | connecting k =>
    have hs := hp k rfl
    rw [h.1, step_connecting]
    cases hx : n.connect k.socket c.remote with
    | none => simp [hx] at hs
    | some x =>
      obtain ⟨r, m⟩ := x
      cases r <;> exact .inl rfl
  | locating k =>
    obtain ⟨hk, own, i, hi⟩ := h
    rw [hk, step_locating, localAddr_of_own? (d := own) (by rw [hi]; rfl)]
    exact .inl rfl
  | sending k _ =>
    obtain ⟨hk, own, i, hi⟩ := h
    have hl := hw.made _ (mem_ends_of_slot (end?_of_slot hi))
    rw [hk, step_sending]
    rcases send_cases hi hl c.payload with ⟨m, hm, -⟩ | ⟨hm, -⟩
    · rw [hm]
      exact .inl rfl
    · rw [hm]
      exact .inl rfl
  | closing k _ _ =>
    obtain ⟨⟨hk, own, i, hi⟩, -⟩ := h
    rw [hk, step_closing, shutdown_eq hi]
    exact .inl rfl
  | leaving ss o =>
    cases ss with
    | nil => exact .inr rfl
    | cons s rest => exact .inl rfl

/-- A client has one socket at most to give up. -/
theorem Fits.rest_eq {s : Nat} {rest : List Nat} {o : Except Failure SendReport}
    (h : Fits c n (leaving (s :: rest) o)) : rest = [] := by
  have hr := h.1
  rw [List.length_cons] at hr
  exact List.length_eq_zero_iff.mp (by omega)

def written (c : Client.Config) : Delivery Nat → List UInt8
  | opening | connecting _ | locating _ | sending .. => []
  | closing .. | leaving .. => c.payload

def hungUp : Delivery Nat → Bool
  | opening | connecting _ | locating _ | sending .. | closing .. => false
  | leaving [] _ | leaving _ (.ok _) => true
  | leaving _ (.error _) => false

theorem hungUp_of_outcome? (h : p.outcome?.isSome) : p.hungUp = true := by
  obtain ⟨o, ho⟩ := Option.isSome_iff_exists.mp h
  rw [of_outcome? ho]
  rfl

theorem written_of_hungUp (h : p.hungUp = true) : p.written c = c.payload := by
  cases p with
  | leaving _ _ => rfl
  | opening | connecting _ | locating _ | sending _ _ | closing _ _ _ => simp [hungUp] at h

theorem written_cases : p.written c = [] ∨ p.written c = c.payload := by
  cases p <;> simp [written]

/-- What a client comes to whose connection is kept. -/
def kept (c : Client.Config) (own : Descriptor) : Except Failure SendReport :=
  if c.payload = [] then .error (.nothingSent c.remote)
  else .ok ⟨some own, c.remote, c.payload.length⟩

/-- A client that holds the calling end of a connection, or has held it and come to what it
should. -/
def Holds (c : Client.Config) (own : Descriptor) (k : Nat) (n : Network) : Delivery Nat → Prop
  | opening | connecting _ => False
  | locating h => n.slot h.socket = .connected own k .caller
  | sending h told | closing h told _ =>
    n.slot h.socket = .connected own k .caller ∧ told = some own
  | leaving ss o =>
    (∀ s ∈ ss, n.slot s = .connected own k .caller) ∧ o = kept c own

/-- A pipe that holds what a client has written, but for the bytes that were counted already. -/
structure Poured (c : Client.Config) (p : Delivery Nat) (b : Nat) (pipe : Pipe) : Prop where
  buffer : pipe.buffer = (p.written c).drop b
  count : b ≤ (p.written c).length
  writeClosed : pipe.writeClosed = p.hungUp
  readClosed : pipe.readClosed = false

theorem Holds.frame (h : p.Holds c own k n) (hs : ∀ s ∈ p.sockets, n'.slot s = n.slot s) :
    p.Holds c own k n' := by
  cases p with
  | opening => exact h
  | connecting _ => exact h
  | locating i => exact (hs i.socket (List.mem_singleton_self _)).trans h
  | sending i _ => exact ⟨(hs i.socket (List.mem_singleton_self _)).trans h.1, h.2⟩
  | closing i _ _ => exact ⟨(hs i.socket (List.mem_singleton_self _)).trans h.1, h.2⟩
  | leaving ss o => exact ⟨fun s hm => (hs s hm).trans (h.1 s hm), h.2⟩

/-- A client that has hung up, and holds a connection still or not, gives up what it holds. -/
theorem Holds.turn_of_hungUp (h : p.Holds c own k n) (hu : p.hungUp = true) (hf : p.Fits c n)
    (ht : Turn c p e p') : p'.Holds c own k n' := by
  cases ht with
  | left s rest o =>
    obtain rfl := hf.rest_eq
    exact ⟨by simp, h.2⟩
  | _ => simp [hungUp] at hu

theorem hungUp_of_turn (hf : p.Fits c n) (h : p.hungUp = true) (ht : Turn c p e p') :
    p'.hungUp = true := by
  cases ht with
  | left s rest o =>
    obtain rfl := hf.rest_eq
    rfl
  | _ => simp [hungUp] at h

/-- A server counts the bytes that it takes out. -/
theorem Poured.taken {pipe : Pipe} (h : Poured c p b pipe) (room : Nat) :
    Poured c p (b + min room ((p.written c).length - b))
      { pipe with buffer := pipe.buffer.drop room } where
  buffer := by
    rw [h.buffer, List.drop_drop]
    by_cases hr : room ≤ (p.written c).length - b
    · rw [Nat.min_eq_left hr]
    · rw [List.drop_eq_nil_of_le (by omega), List.drop_eq_nil_of_le (by omega)]
  count := by
    have := h.count
    omega
  writeClosed := h.writeClosed
  readClosed := h.readClosed

/-- A read that returns nothing comes after the client has hung up. -/
theorem Poured.hungUp_of_read {pipe pipe' : Pipe} {room : Nat} (h : Poured c p b pipe)
    (hr : 0 < room) (hx : pipe.read room = some ([], pipe')) : p.hungUp = true := by
  rcases (Pipe.of_read_eq_nil hr hx).2 with ho | ho
  · exact h.writeClosed.symm.trans ho
  · exact absurd (h.readClosed.symm.trans ho) (by simp)

/-- What is read from the pipe of a client is the next of its payload. -/
theorem Poured.bytes {pipe pipe' : Pipe} {room : Nat} {bytes : List UInt8}
    (h : Poured c p b pipe) (hr : 0 < room) (hx : pipe.read room = some (bytes, pipe')) :
    bytes = (c.payload.drop b).take room := by
  have hbytes := (Pipe.of_read hr hx).1
  rw [h.buffer] at hbytes
  rcases written_cases (c := c) (p := p) with hnone | hall
  · -- nothing is written and the read returned, so the client has hung up
    rw [hnone, List.drop_nil, List.take_nil] at hbytes
    subst hbytes
    have hp := (written_of_hungUp (c := c) (h.hungUp_of_read hr hx)).symm.trans hnone
    rw [hp, List.drop_nil, List.take_nil]
  · rw [hbytes, hall]

theorem Poured.read {pipe pipe' : Pipe} {room : Nat} {bytes : List UInt8}
    (h : Poured c p b pipe) (hr : 0 < room) (hx : pipe.read room = some (bytes, pipe')) :
    Poured c p (b + bytes.length) pipe' ∧ bytes.length = min room (c.payload.length - b) := by
  obtain ⟨hbytes, hpipe⟩ := Pipe.of_read hr hx
  have hlen : bytes.length = min room ((p.written c).length - b) := by
    rw [hbytes, h.buffer, List.length_take, List.length_drop]
  have hpoured := h.taken room
  rw [← hpipe, ← hlen] at hpoured
  refine ⟨hpoured, ?_⟩
  rw [h.bytes hr hx, List.length_take, List.length_drop]

theorem Poured.drained {pipe pipe' : Pipe} {room : Nat} (h : Poured c p b pipe) (hr : 0 < room)
    (hx : pipe.read room = some ([], pipe')) : b = c.payload.length := by
  have hall := h.count
  have hrest := h.buffer.symm.trans (Pipe.of_read_eq_nil hr hx).1
  rw [written_of_hungUp (h.hungUp_of_read hr hx)] at hall hrest
  exact Nat.le_antisymm hall (List.drop_eq_nil_iff.mp hrest)

/-- A client that writes nothing, and hangs up or does not. -/
theorem Poured.unwritten {pipe : Pipe} (h : Poured c p b pipe) (w : Bool)
    (hw : p'.written c = p.written c) (hh : p'.hungUp = (p.hungUp || w)) :
    Poured c p' b { pipe with
      buffer := pipe.buffer ++ [], writeClosed := pipe.writeClosed || w } where
  buffer := by rw [List.append_nil, hw, h.buffer]
  count := hw ▸ h.count
  writeClosed := by rw [hh, h.writeClosed]
  readClosed := h.readClosed

/-- A client that has sent its payload holds its connection still. -/
theorem holds_afterSend {s : Nat} (hi : n.slot s = .connected own k .caller) :
    (afterSend c (joined c s) (some own) c.payload.length).Holds c own k n := by
  unfold afterSend
  split
  · rename_i h0
    refine ⟨?_, (if_pos (List.length_eq_zero_iff.mp h0)).symm⟩
    intro t ht
    rwa [List.mem_singleton.mp ht]
  · rw [if_neg (Nat.lt_irrefl _)]
    exact ⟨hi, rfl⟩

/-- A client sends all of its payload at once. -/
theorem Poured.afterSend {pipe : Pipe} {h : Handle Nat} {told told' : Option Descriptor}
    (hp : Poured c (sending h told) b pipe) :
    Poured c (Delivery.afterSend c h told' c.payload.length) b { pipe with
      buffer := pipe.buffer ++ c.payload, writeClosed := pipe.writeClosed || false } := by
  have hb : b = 0 := Nat.le_zero.mp hp.count
  have hbuffer : pipe.buffer = [] := hp.buffer.trans List.drop_nil
  rw [hb, hbuffer, Bool.or_false, List.nil_append]
  unfold Delivery.afterSend
  split
  · exact ⟨rfl, Nat.zero_le _, hp.writeClosed, hp.readClosed⟩
  · rw [if_neg (Nat.lt_irrefl _)]
    exact ⟨rfl, Nat.zero_le _, hp.writeClosed, hp.readClosed⟩

/-- The books of a client's pipe are kept while others do something. -/
theorem Poured.frame (hw : Wired n) (hc : Change n e n') (hh : p.Holds c own k n)
    (hs : ∀ s ∈ p.sockets, e.subject? ≠ some s) (hq : Quiet k .callee (n, e))
    (hp : Poured c p b (n.pipe k .callee)) : Poured c p b (n'.pipe k .callee) := by
  have hheld {s : Nat} (hi : n.slot s = .connected own k .caller) (hm : s ∈ p.sockets) :
      n'.pipe k .callee = n.pipe k .callee :=
    pipe_frame hw hc hq (quiet_of_held hw (end?_of_slot hi) (hs s hm))
  have he : n'.pipe k .callee = n.pipe k .callee := by
    cases p with
    | opening => exact hh.elim
    | connecting _ => exact hh.elim
    | locating _ => exact hheld hh (List.mem_singleton_self _)
    | sending _ _ => exact hheld hh.1 (List.mem_singleton_self _)
    | closing _ _ _ => exact hheld hh.1 (List.mem_singleton_self _)
    | leaving ss o =>
      cases ss with
      | nil => exact pipe_of_closed hw hc hq hp.writeClosed
      | cons s rest => exact hheld (hh.1 s List.mem_cons_self) List.mem_cons_self
  exact he ▸ hp

/-- A turn of a client keeps the books of its pipe. -/
theorem Poured.turn (hw : Wired n) (hf : p.Fits c n) (hh : p.Holds c own k n)
    (hp : Poured c p b (n.pipe k .callee)) (hq : Quiet k .callee (n, e)) (ht : Turn c p e p')
    (hs : n.Step e n') : p'.Holds c own k n' ∧ Poured c p' b (n'.pipe k .callee) := by
  have hc := change_of_step hs
  have hn := (pipe_of_quiet hw hc hq).1
  have hlt {s : Nat} (hi : n.slot s = .connected own k .caller) : k < n.connections.length :=
    hw.made _ (mem_ends_of_slot (end?_of_slot hi))
  cases ht with
  | opened _ => exact hh.elim
  | connected _ => exact hh.elim
  | refused _ _ => exact hh.elim
  | located s near =>
    have hi : n.slot s = .connected own k .caller := hh
    obtain rfl := Except.ok.inj (answer_of_localAddr (d := own) (by rw [hi]; rfl) hs.answer)
    refine ⟨⟨(slot_of_transfer hc rfl s).trans hh, rfl⟩, ?_⟩
    rw [hn]
    exact hp.unwritten false rfl rfl
  | unlocated s _ =>
    have hi : n.slot s = .connected own k .caller := hh
    exact absurd (answer_of_localAddr (d := own) (by rw [hi]; rfl) hs.answer) (by simp)
  | sent s o i =>
    obtain ⟨hi, htold⟩ := hh
    have hi : n.slot s = .connected own k .caller := hi
    have hl : i = c.payload.length := length_of_send hi (hlt hi) hs.answer
    have hsent : Moment.sentTo k .callee (n, .answered (.send s c.payload) (.ok i)) = c.payload :=
      if_pos (end?_of_slot hi)
    have hi' := (slot_of_transfer hc rfl s).trans hi
    rw [hn, hsent, htold, hl]
    exact ⟨holds_afterSend hi', hp.afterSend⟩
  | unsent s o e =>
    have hi : n.slot s = .connected own k .caller := hh.1
    rcases (error_of_send hi (hlt hi) hs.answer).2 with ho | ho
    · exact absurd (hp.writeClosed.symm.trans ho) (by simp [hungUp])
    · exact absurd (hp.readClosed.symm.trans ho) (by simp)
  | shut s o i =>
    obtain ⟨hi, htold⟩ := hh
    have hi : n.slot s = .connected own k .caller := hi
    obtain ⟨-, rfl, hn0⟩ := hf
    refine ⟨⟨?_, by rw [kept, if_neg hn0, htold]⟩, ?_⟩
    · intro t ht
      rw [List.mem_singleton.mp ht]
      exact (slot_of_transfer hc rfl s).trans hi
    · have hstop : Moment.stopsWriting k .caller (n, .answered (.shutdown s .both) (.ok ())) =
          true := by simp [Moment.stopsWriting, hi, Slot.end?]
      rw [hn, Side.other, hstop]
      exact hp.unwritten true rfl rfl
  | unshut s o i e =>
    have hi : n.slot s = .connected own k .caller := hh.1
    exact absurd hs.answer (not_error_of_shutdown hi)
  | left s rest o =>
    have hi := hh.1 s List.mem_cons_self
    obtain rfl := hf.rest_eq
    refine ⟨⟨by simp, hh.2⟩, ?_⟩
    have hstop : Moment.stopsWriting k .caller (n, .dropped s) = true := by
      simp [Moment.stopsWriting, yields, hi]
    rw [hn, Side.other, hstop]
    exact hp.unwritten true rfl (Bool.or_true _).symm

end Delivery
end Handoff
