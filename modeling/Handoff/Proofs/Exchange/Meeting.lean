import Handoff.Proofs.Exchange.Caller

/-!
A server over a network and the client it meets. From the time the client has connected, what the
server has counted and what is still in the pipe make up what the client has written. Every turn of
the two keeps that, and so does whatever others do. A server that can have no buffer is lost in the
turn that accepts.
-/
namespace Handoff

open Loopback (Network Side Pipe Pending Queue Slot)
open Loopback.Network

/-- What a server reports that has drained a client. -/
def Listener.drained (l : Listener Nat) (c : Client.Config) (own : Descriptor) : DrainReport :=
  ⟨l.own, Descriptor.peer own.cid own.port, .ofNat c.payload.length,
    .ofNat ((c.payload.length + l.room.toNat - 1) / l.room.toNat)⟩

namespace Drain

variable {l : Listener Nat} {q k : Nat} {c : Client.Config} {own : Descriptor}
  {p p' : Delivery Nat} {d d' : Drain Nat} {n n' : Network} {e : Event}

theorem Turn.subject (h : Turn d e d') {s : Nat} (hs : e.subject? = some s) : s ∈ d.sockets := by
  cases h <;> simp_all [Event.subject?, sockets]

theorem Turn.keeps (h : Turn d e d') {s : Nat} (hs : s ∈ d.sockets) :
    s ∈ d'.sockets ∨ e = .dropped s := by
  cases h with
  | accepted _ _ _ =>
    rw [sockets_met]
    exact .inl (List.mem_cons_of_mem _ hs)
  | received _ _ _ _ _ _ _ =>
    simp only [sockets, socket_draining]
    exact .inl hs
  | drained _ _ _ _ _ =>
    simp only [sockets, socket_draining]
    exact .inl hs
  | left t rest o =>
    rcases List.mem_cons.mp hs with rfl | hs
    · exact .inr rfl
    · exact .inl hs
  | _ => exact .inl hs

theorem Turn.gains (h : Turn d e d') {s : Nat} (hs : e.makes? = some s) : s ∈ d'.sockets := by
  cases h with
  | accepted l t peer =>
    cases hs
    rw [sockets_met]
    exact List.mem_cons_self
  | _ => simp [Event.makes?] at hs

/-- The only socket that a server gets is a new one. -/
theorem Turn.sockets (h : Turn d e d') (hs : n.Step e n') :
    d'.sockets.Sublist d.sockets ∨
      d'.sockets = n.slots.length :: d.sockets ∧ n'.slots.length = n.slots.length + 1 := by
  cases h with
  | accepted l s peer =>
    obtain ⟨rfl, hl⟩ := length_slots_of_makes (change_of_step hs) rfl
    rw [sockets_met]
    exact .inr ⟨rfl, hl⟩
  | aborted _ _ => exact .inl (List.Sublist.refl _)
  | received _ _ _ _ _ _ _ =>
    simp only [Drain.sockets, socket_draining]
    exact .inl (List.Sublist.refl _)
  | drained _ _ _ _ _ =>
    simp only [Drain.sockets, socket_draining]
    exact .inl (List.Sublist.refl _)
  | cut _ _ _ _ _ _ => exact .inl (List.Sublist.refl _)
  | shut _ _ _ _ _ => exact .inl (List.Sublist.refl _)
  | unshut _ _ _ _ _ _ => exact .inl (List.Sublist.refl _)
  | left _ _ _ => exact .inl (List.sublist_cons_self _ _)

/-- Receives that were full but for the last. -/
structure Paced (room length total reads : Nat) : Prop where
  reads : reads = (total + room - 1) / room
  whole : total = length ∨ room ∣ total

theorem paced_zero {room : Nat} (h : 0 < room) (length : Nat) : Paced room length 0 0 where
  reads := (Nat.div_eq_of_lt (by omega)).symm
  whole := .inr (Nat.dvd_zero _)

/-- One more receive takes a roomful, or the rest. -/
theorem Paced.next {room length total reads : Nat} (h : Paced room length total reads)
    (hr : 0 < room) (ht : total < length) :
    Paced room length (total + min room (length - total)) (reads + 1) := by
  obtain ⟨m, rfl⟩ : room ∣ total := h.whole.resolve_left (Nat.ne_of_lt ht)
  have hm (d : Nat) (hd : 0 < d) (hd' : d ≤ room) : (room * m + d + room - 1) / room = m + 1 := by
    have he : room * m + d + room - 1 = d - 1 + room * (m + 1) := by
      rw [Nat.mul_succ]
      omega
    rw [he, Nat.add_mul_div_left _ _ hr, Nat.div_eq_of_lt (by omega), Nat.zero_add]
  have hreads : reads = m := by
    have he : room * m + room - 1 = room - 1 + room * m := by omega
    rw [h.reads, he, Nat.add_mul_div_left _ _ hr, Nat.div_eq_of_lt (by omega), Nat.zero_add]
  constructor
  · rw [hm _ (by omega) (Nat.min_le_left _ _), hreads]
  · by_cases hl : room ≤ length - room * m
    · rw [Nat.min_eq_left hl]
      exact .inr (Nat.dvd_add (Nat.dvd_mul_right _ _) (Nat.dvd_refl _))
    · exact .inl (by omega)

/-- A server that is about to accept a client, has accepted it, or is done with it. What it has
counted it has in words. -/
inductive Serves (l : Listener Nat) (q : Nat) (c : Client.Config) (own : Descriptor) (k : Nat)
    (n : Network) (p : Delivery Nat) : Drain Nat → Prop where
  | accepting {first : Pending} {rest : List Pending}
      (hl : n.slot l.handle.socket = .listening l.own q) (hq : n.waitingIn q = first :: rest)
      (hk : first.connection = k) (ha : first.peer = Descriptor.peer own.cid own.port)
      (hp : p.Poured c 0 (n.pipe k .callee)) : Serves l q c own k n p (accepting l)
  | receiving {conn : Handle Nat} {total reads : Nat} (hb : l.room ≤ largestBuffer)
      (hc : conn.stage.isConnection = true) (hs : (n.slot conn.socket).end? = some (k, .callee))
      (hp : p.Poured c total (n.pipe k .callee))
      (hr : Paced l.room.toNat c.payload.length total reads) :
      Serves l q c own k n p
        (receiving l conn (Descriptor.peer own.cid own.port) (.ofNat total) (.ofNat reads))
  | closing {conn : Handle Nat} {reads : Nat} (hb : l.room ≤ largestBuffer)
      (hc : conn.stage.isConnection = true) (hs : (n.slot conn.socket).end? = some (k, .callee))
      (hh : p.hungUp = true)
      (hr : reads = (c.payload.length + l.room.toNat - 1) / l.room.toNat) :
      Serves l q c own k n p
        (closing l conn (Descriptor.peer own.cid own.port) (.ofNat c.payload.length)
          (.ofNat reads))
  | leaving {ss : List Nat} (hb : l.room ≤ largestBuffer) (hh : p.hungUp = true) :
      Serves l q c own k n p (leaving ss (.returned (.ok (l.drained c own))))

/-- A server that has panicked, or is on its way out. -/
def Lost (l : Listener Nat) (d : Drain Nat) : Prop :=
  largestBuffer < l.room ∧ ∃ ss, d = leaving ss .panicked

theorem Lost.turn (h : d.Lost l) (ht : Turn d e d') : d'.Lost l := by
  obtain ⟨hlt, ss, rfl⟩ := h
  cases ht with
  | left s rest _ => exact ⟨hlt, rest, rfl⟩

theorem Lost.goes_on (h : d.Lost l) (n : Network) :
    (d.step Network.transport n).isSome ∨ d.exit? = some .panicked := by
  obtain ⟨-, ss, rfl⟩ := h
  cases ss with
  | nil => exact .inr rfl
  | cons s rest => exact .inl rfl

/-- A turn of the server keeps the books: the bytes that it takes are counted. Only the turn that
accepts can be its last before a panic. -/
theorem Serves.turn (hw : Wired n) (hr : 0 < l.room.toNat) (h : Serves l q c own k n p d)
    (ht : Turn d e d') (hs : n.Step e n') : Serves l q c own k n' p d' ∨ d'.Lost l := by
  cases h with
  | accepting hl hq hk ha hp =>
    cases ht with
    | accepted _ s peer =>
      obtain ⟨hanswer, -, hend, hpipe⟩ := accept_of_first hl hq hs.answer
      cases hanswer
      rw [hk] at hend
      by_cases hb : l.room ≤ largestBuffer
      · rw [ha, met_of_le hb]
        exact .inl (.receiving hb rfl hend ((hpipe k .callee).symm ▸ hp) (paced_zero hr _))
      · rw [met_of_lt (UInt64.not_le.mp hb)]
        exact .inr ⟨UInt64.not_le.mp hb, _, rfl⟩
    | aborted _ e => cases (accept_of_first hl hq hs.answer).1
  | receiving hb' hc hs' hp hpaced =>
    rename_i conn total reads
    obtain ⟨near, hnear⟩ := slot_of_end? hs'
    have hlt := hw.made _ (mem_ends_of_slot hs')
    cases ht with
    | received _ _ _ _ _ bytes hb =>
      have hslot := slot_of_transfer (change_of_step hs) rfl conn.socket
      obtain ⟨_, he, hread⟩ := of_recv hnear hlt hs.answer
      cases he
      obtain ⟨hpoured, hlen⟩ := hp.read hr hread
      have hpos := List.length_pos_iff.mpr hb
      have hnext := hpaced.next hr (by omega)
      rw [← hlen] at hnext
      rw [← UInt64.ofNat_add, ofNat_add_one]
      exact .inl (.receiving hb' (isConnection_draining hc)
        (by rw [socket_draining, hslot, hs']) hpoured hnext)
    | drained _ _ _ _ _ =>
      have hslot := slot_of_transfer (change_of_step hs) rfl conn.socket
      obtain ⟨_, he, hread⟩ := of_recv hnear hlt hs.answer
      cases he
      obtain rfl := hp.drained hr hread
      exact .inl (.closing hb' (isConnection_draining hc) (by rw [socket_draining, hslot, hs'])
        (hp.hungUp_of_read hr hread) hpaced.reads)
    | cut _ _ _ _ _ e =>
      obtain ⟨bytes, he, -⟩ := of_recv hnear hlt hs.answer
      simp at he
  | closing hb hc hs' hh hreads =>
    cases ht with
    | shut _ _ _ _ _ =>
      rw [hreads]
      exact .inl (.leaving hb hh)
    | unshut _ _ _ _ _ e =>
      obtain ⟨near, hnear⟩ := slot_of_end? hs'
      exact absurd hs.answer (not_error_of_shutdown hnear)
  | leaving hb hh =>
    cases ht with
    | left s rest _ => exact .inl (.leaving hb hh)

/-- What others do leaves a server as it is, and so does its client, as long as that keeps the
books of the pipe. -/
theorem Serves.frame (hw : Wired n) (ho : Owned n) (h : Serves l q c own k n p d)
    (hc : Change n e n') (hs : ∀ s ∈ d.sockets, e.subject? ≠ some s)
    (hp : ∀ b, Quiet k .callee (n, e) → p.Poured c b (n.pipe k .callee) →
      p'.Poured c b (n'.pipe k .callee))
    (hh : p.hungUp = true → p'.hungUp = true) : Serves l q c own k n' p' d := by
  have hslot {s : Nat} (hm : s ∈ d.sockets) {x : Nat × Side} (hx : (n.slot s).end? = some x) :
      (n'.slot s).end? = some x := by
    obtain ⟨near, hnear⟩ := slot_of_end? hx
    rw [slot_frame hc (lt_of_slot hnear (by simp)) (hs s hm)]
    exact hx
  cases h with
  | accepting hl hq hk ha hpour =>
    rename_i first rest
    have hsl := hs l.handle.socket (List.mem_singleton_self _)
    have hquiet := quiet_of_waiting hw ho hl (hq ▸ List.mem_cons_self) hsl
    rw [hk] at hquiet
    have hl' := (slot_frame hc (lt_of_slot hl (by simp)) hsl).trans hl
    obtain ⟨rest', hq'⟩ := first_waiting_frame ho hc hl hsl hq
    exact .accepting hl' hq' hk ha (hp 0 hquiet hpour)
  | receiving hb hconn hend hpour hpaced =>
    have hquiet := quiet_of_held hw hend (hs _ List.mem_cons_self)
    exact .receiving hb hconn (hslot List.mem_cons_self hend) (hp _ hquiet hpour) hpaced
  | closing hb hconn hend hhung hreads =>
    exact .closing hb hconn (hslot List.mem_cons_self hend) (hh hhung) hreads
  | leaving hb hhung => exact .leaving hb (hh hhung)

/-- The client of a server has hung up, or the books of its pipe are kept where only the server
reads. -/
theorem Serves.hungUp_or_poured (hw : Wired n) (ho : Owned n) (h : Serves l q c own k n p d) :
    p.hungUp = true ∨ ∃ b, p.Poured c b (n.pipe k .callee) ∧
      ∀ e : Event, (∀ s ∈ d.sockets, e.subject? ≠ some s) → Quiet k .callee (n, e) := by
  cases h with
  | accepting hl hq hk _ hpour =>
    refine .inr ⟨_, hpour, ?_⟩
    intro e hs
    rw [← hk]
    exact quiet_of_waiting hw ho hl (hq ▸ List.mem_cons_self) (hs _ (List.mem_singleton_self _))
  | receiving _ _ hend hpour _ =>
    exact .inr ⟨_, hpour, fun e hs => quiet_of_held hw hend (hs _ List.mem_cons_self)⟩
  | closing _ _ _ hh _ => exact .inl hh
  | leaving _ hh => exact .inl hh

theorem Serves.staged (h : Serves l q c own k n p d) (hl : l.handle.stage = .listening) :
    d.Staged := by
  cases h with
  | accepting _ _ _ _ _ => exact hl
  | receiving _ hc _ _ _ => exact hc
  | closing _ hc _ _ _ => exact hc
  | leaving _ _ => trivial

theorem Serves.goes_on (hw : Wired n) (h : Serves l q c own k n p d)
    (hl : l.handle.stage = .listening) (hh : p.hungUp = true) :
    (d.step Network.transport n).isSome ∨
      d.exit? = some (.returned (.ok (l.drained c own))) := by
  cases h with
  | accepting hslot hq _ _ _ =>
    obtain ⟨queue, hqueue, hpending⟩ := exists_queue_of_waitingIn hq
    rw [step_accepting hl, accept_eq hslot hqueue hpending]
    exact .inl rfl
  | receiving _ hc hend hpour _ =>
    obtain ⟨near, hnear⟩ := slot_of_end? hend
    have hlt := hw.made _ (mem_ends_of_slot hend)
    rw [step_receiving hc, recv_eq hnear hlt]
    have hread := Pipe.read_ne_none (hpour.writeClosed.trans hh) l.room.toNat
    cases hr : (n.pipe k .callee).read l.room.toNat with
    | none => exact absurd hr hread
    | some x =>
      obtain ⟨bytes, pipe⟩ := x
      cases bytes <;> exact .inl rfl
  | closing _ hc hend _ _ =>
    obtain ⟨near, hnear⟩ := slot_of_end? hend
    rw [step_closing hc, shutdown_eq hnear]
    exact .inl rfl
  | leaving hb hhung =>
    rename_i ss
    cases ss with
    | nil => exact .inr rfl
    | cons s rest => exact .inl rfl

theorem Serves.bytes (hw : Wired n) (hr : 0 < l.room.toNat) {conn : Handle Nat}
    {peer : Descriptor} {total reads : UInt64} {bytes : List UInt8}
    (h : Serves l q c own k n p (Drain.receiving l conn peer total reads))
    (hx : n.recv conn.socket l.room.toNat = some (.ok bytes, n')) :
    l.room ≤ largestBuffer ∧ ∃ taken, total = .ofNat taken ∧
      bytes = (c.payload.drop taken).take l.room.toNat := by
  cases h with
  | receiving hb _ hend hpour _ =>
    obtain ⟨near, hnear⟩ := slot_of_end? hend
    have hlt := hw.made _ (mem_ends_of_slot hend)
    obtain ⟨_, he, hread⟩ := of_recv hnear hlt hx
    cases he
    exact ⟨hb, _, rfl, hpour.bytes hr hread⟩

end Drain
end Handoff
