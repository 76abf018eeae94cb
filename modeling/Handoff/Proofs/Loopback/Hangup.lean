import Handoff.Proofs.Loopback.Sound

/-!
Nobody waits for someone who is gone. The main statement is `hangup_of_run`: a receive is made to
wait only while the other end is held and may still send, and once the other end is given up, all
that is due is received and nothing can be sent.
-/
namespace Handoff.Loopback.Network

open Moment

variable {n n' m : Network} {e : Event} {tr : List Moment} {s c : Nat} {side : Side}
  {own : Descriptor}

/-- The bytes that a side has still to receive. -/
def due (tr : List Moment) (c : Nat) (side : Side) : List UInt8 :=
  if tr.any (stopsReading c side) then []
  else (tr.flatMap (sentTo c side)).drop (tr.flatMap (receivedAt c side)).length

theorem buffer_eq_due {cid : UInt32} (h : Run (ofCid cid) tr n) (c : Nat) (side : Side) :
    (n.pipe c side).buffer = due tr c side := by
  have hf := flow_ofCid h c side
  unfold due
  cases hr : tr.any (stopsReading c side) with
  | true => exact hf.cleared hr
  | false =>
    rw [← hf.kept hr, List.drop_left]
    rfl

theorem sent_of_closed (hw : Wired m) (h : Run m tr n) (hc : (m.pipe c side).writeClosed = true) :
    tr.flatMap (sentTo c side) = [] ∧ (n.pipe c side).writeClosed = true := by
  induction h with
  | nil => exact ⟨rfl, hc⟩
  | snoc hr hs ih =>
    have hm := move_of_change (wired_of_run hr hw) (change_of_step hs) c side
    rw [List.flatMap_append, ih.1, List.flatMap_singleton]
    exact ⟨hm.sent_eq_nil ih.2, hm.writeClosed ih.2⟩

theorem recv_eq_none_iff {room : Nat} (hs : n.slot s = .connected own c side)
    (hl : c < n.connections.length) : n.recv s room = none ↔ (n.pipe c side).read room = none := by
  rw [recv_eq hs hl]
  cases (n.pipe c side).read room <;> simp

theorem recv_of_closed (hs : n.slot s = .connected own c side) (hl : c < n.connections.length)
    (hc : (n.pipe c side).writeClosed = true) (room : Nat) :
    ∃ n', n.recv s room = some (.ok ((n.pipe c side).buffer.take room), n') := by
  obtain ⟨p, hp⟩ := Pipe.read_of_closed hc room
  exact ⟨_, by rw [recv_eq hs hl, hp]⟩

/-- A receive is made to wait exactly while all that was sent has been received, the other end is
held and may still send, and the receiver has not stopped reading. -/
theorem recv_waits_iff {cid : UInt32} {room : Nat} (h : Run (ofCid cid) tr n)
    (hs : n.slot s = .connected own c side) (hr : 0 < room) :
    n.recv s room = none ↔
      tr.flatMap (receivedAt c side) = tr.flatMap (sentTo c side) ∧ n.Held c side.other ∧
      tr.any (stopsWriting c side.other) = false ∧ tr.any (stopsReading c side) = false := by
  have hf := flow_ofCid h c side
  have hsound := Race.sound_of_network_run h
  have hl : c < n.connections.length := hsound.wired.made _ (mem_ends_of_slot (end?_of_slot hs))
  rw [recv_eq_none_iff hs hl, Pipe.read_eq_none_iff hr, hf.writeClosed, hf.readClosed]
  constructor
  · rintro ⟨hb, hw, hr⟩
    have hk := hf.kept hr
    rw [hb, List.append_nil] at hk
    refine ⟨hk, ?_, hw, hr⟩
    -- an end that is not held would have been closed
    rcases hsound.end_of_idle (fun _ => rfl) hl side.other with hheld | ⟨-, hclosed⟩
    · exact hheld
    · rw [other_other] at hclosed
      rw [← hf.writeClosed] at hw
      exact absurd (hclosed.symm.trans hw) (by simp)
  · rintro ⟨hk, -, hw, hr⟩
    refine ⟨?_, hw, hr⟩
    have hb := hf.kept hr
    rw [hk] at hb
    simpa using hb

theorem closed_of_dropped {cid : UInt32} {tr₁ tr₂ : List Moment} {t : Nat}
    (h : Run (ofCid cid) (tr₁ ++ (m, .dropped t) :: tr₂) n)
    (hy : m.yields t c side.other = true) :
    (n.pipe c side).writeClosed = true ∧ (n.pipe c side.other).readClosed = true := by
  have hm : (m, .dropped t) ∈ tr₁ ++ (m, .dropped t) :: tr₂ :=
    List.mem_append_right _ List.mem_cons_self
  constructor
  · rw [(flow_ofCid h c side).writeClosed]
    exact List.any_eq_true.mpr ⟨_, hm, hy⟩
  · rw [(flow_ofCid h c side.other).readClosed]
    exact List.any_eq_true.mpr ⟨_, hm, hy⟩

/-- After the other end was given up a side receives what was due then, and nothing else. -/
theorem received_of_dropped {cid : UInt32} {tr₁ tr₂ : List Moment} {t : Nat}
    (h : Run (ofCid cid) (tr₁ ++ (m, .dropped t) :: tr₂) n)
    (hy : m.yields t c side.other = true) :
    tr₂.flatMap (receivedAt c side) <+: due tr₁ c side ∧
      ((tr₁ ++ (m, .dropped t) :: tr₂).any (stopsReading c side) = false →
        tr₂.flatMap (receivedAt c side) ++ due (tr₁ ++ (m, .dropped t) :: tr₂) c side =
          due tr₁ c side) := by
  obtain ⟨m', h₁, hstep, h₂⟩ := h.split
  have hwm := wired_of_run h₁ (wired_ofCid cid)
  have hw := hwm.step (change_of_step hstep)
  have hclosed := (closed_of_dropped (h₁.snoc hstep) hy).1
  obtain ⟨hsent, -⟩ := sent_of_closed hw h₂ hclosed
  have hf₁ := flow_ofCid h₁ c side
  -- from the moment of the loss on, all that can be received is in the pipe
  have hstart : Pipe.Flow (due tr₁ c side) [] (tr₁.any (stopsReading c side))
      (tr₁.any (stopsWriting c side.other)) (m.pipe c side) := by
    rw [← buffer_eq_due h₁]
    exact ⟨List.nil_prefix, fun _ => rfl, hf₁.cleared, hf₁.readClosed, hf₁.writeClosed⟩
  have hflow := flow_after hwm hstart ((Run.nil.snoc hstep).trans h₂)
  simp only [List.nil_append, List.flatMap_append, List.flatMap_singleton, hsent] at hflow
  have hp := hflow.received_prefix
  simp only [sentTo, receivedAt, List.nil_append, List.append_nil] at hp
  refine ⟨hp, ?_⟩
  intro hr
  have hk := hflow.kept (by simpa using hr)
  rw [buffer_eq_due h] at hk
  simpa [sentTo, receivedAt] using hk

/-- Nothing is due to a caller whose listener goes before it accepts. -/
theorem due_of_deserted {cid : UInt32} {t q : Nat} (h : Run (ofCid cid) tr m)
    (hl : m.slot t = .listening own q) (hy : m.yields t c side.other = true) :
    due tr c side = [] := by
  obtain ⟨hside, p, hp, rfl⟩ : side.other = .callee ∧ ∃ p ∈ m.waitingIn q, p.connection = c := by
    simpa [yields, hl] using hy
  have hcaller : side = .caller := by
    cases side
    · rfl
    · simp [Side.other] at hside
  rw [← buffer_eq_due h, hcaller]
  exact (Race.sound_of_network_run h).unheard q p hp

/-- A receive is made to wait exactly while all that was sent has been received, the other end is
held by a socket or waits with a listener, and neither that end has stopped writing nor the receiver
reading. Once the other end was given up, itself or with the listener that it waited with, all sends
fail and all receives return: what was still due at that moment, which is nothing when the listener
went, and then no more. -/
theorem hangup_of_run {cid : UInt32} (h : Run (ofCid cid) tr n)
    (hs : n.slot s = .connected own c side) :
    (∀ room, 0 < room → (n.recv s room = none ↔
      tr.flatMap (receivedAt c side) = tr.flatMap (sentTo c side) ∧ n.Held c side.other ∧
      tr.any (stopsWriting c side.other) = false ∧ tr.any (stopsReading c side) = false)) ∧
    (∀ tr₁ m t tr₂, tr = tr₁ ++ (m, .dropped t) :: tr₂ → m.yields t c side.other = true →
      (∀ data, n.send s data = some (.error (.plain .brokenPipe), n)) ∧
      (∀ room, ∃ n', n.recv s room = some (.ok ((due tr c side).take room), n')) ∧
      tr₂.flatMap (receivedAt c side) <+: due tr₁ c side ∧
      (tr.any (stopsReading c side) = false →
        tr₂.flatMap (receivedAt c side) ++ due tr c side = due tr₁ c side) ∧
      ((∃ d q, m.slot t = .listening d q) → due tr₁ c side = [])) := by
  refine ⟨fun room => recv_waits_iff h hs, ?_⟩
  rintro tr₁ m t tr₂ rfl hy
  have hl : c < n.connections.length :=
    (wired_of_run h (wired_ofCid cid)).made _ (mem_ends_of_slot (end?_of_slot hs))
  obtain ⟨hwrite, hread⟩ := closed_of_dropped h hy
  obtain ⟨hbegins, hrest⟩ := received_of_dropped h hy
  refine ⟨send_of_closed hs hl (.inr hread), ?_, hbegins, hrest, ?_⟩
  · intro room
    rw [← buffer_eq_due h]
    exact recv_of_closed hs hl hwrite room
  · rintro ⟨d, q, hlisten⟩
    obtain ⟨-, hbefore, -, -⟩ := h.split
    exact due_of_deserted hbefore hlisten hy

/-- The accepted end sends two bytes and is given up. Its caller can send nothing, and receives the
bytes. -/
theorem hangup_of_sending_run :
    ∃ tr n, Run (ofCid 3) tr n ∧
      n.slot 1 = .connected (Descriptor.local 3 40000) 0 .caller ∧
      (∀ data, n.send 1 data = some (.error (.plain .brokenPipe), n)) ∧
      ∀ room, ∃ n', n.recv 1 room = some (.ok (([104, 105] : List UInt8).take room), n') := by
  have h := Run.nil (n := ofCid 3)
    |>.snoc (.call (q := .socket) rfl)
    |>.snoc (.call (q := .bind 0 (Descriptor.bind 3 1234)) rfl)
    |>.snoc (.call (q := .listen 0 1) rfl)
    |>.snoc (.call (q := .socket) rfl)
    |>.snoc (.call (q := .connect 1 (Descriptor.remote 3 1234)) rfl)
    |>.snoc (.call (q := .accept 0) rfl)
    |>.snoc (.call (q := .send 2 [104, 105]) rfl)
    |>.snoc (.drop 2)
  obtain ⟨-, hgone⟩ := hangup_of_run (s := 1) h rfl
  obtain ⟨hsend, hrecv, -⟩ := hgone _ _ 2 [] rfl rfl
  exact ⟨_, _, h, rfl, hsend, hrecv⟩

end Handoff.Loopback.Network
