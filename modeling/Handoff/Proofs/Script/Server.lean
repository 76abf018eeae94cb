import Mathlib.Algebra.GroupWithZero.Nat
import Handoff.Proofs.Script.Plan
import Handoff.Server

/-!
The run of a server over a script. Its calls are a plan that the script breaks off, and where it is
broken off tells how the run ends. Without a buffer the plan stops at the accept, and a server that
gets so far panics. The main statement is `served_of_script`.
-/
namespace Handoff

namespace Script

variable {ahead : CallKind → List Entry} {room : Nat}

/-- Whether a receive that takes the entry is followed by another one. -/
def Entry.goesOn (room : Nat) (x : Entry) : Bool :=
  match x.error? with
  | some e => e.isInterrupted
  | none => !(received room x).isEmpty

/-- The calls of a server from its first receive on. -/
def drainCalls (room : Nat) (ahead : CallKind → List Entry) : List Call :=
  repeated (Entry.goesOn room) (.recv room) ahead ++ [.shutdown .both]

theorem drainCalls_of_goesOn (h : (entry ahead (.recv room)).goesOn room = true) :
    drainCalls room ahead = .recv room :: drainCalls room (rest ahead (.recv room)) := by
  rw [drainCalls, repeated_of_again rfl h]
  rfl

theorem drainCalls_of_stops (h : (entry ahead (.recv room)).goesOn room = false) :
    drainCalls room ahead = [.recv room, .shutdown .both] := by
  rw [drainCalls, repeated_of_not_again h]
  rfl

/-- What one receive comes to: it is interrupted, it fails, or it returns. -/
theorem recv_cases (room : Nat) (x : Entry) :
    (x.goesOn room = true ∧ x.interrupts = true ∧ (Call.recv room).fault? x = none ∧
        (Call.recv room).moved? x = none) ∨
      (∃ e, x.goesOn room = false ∧ x.interrupts = false ∧ x.error? = some e ∧
        (Call.recv room).fault? x = some e ∧ (Call.recv room).moved? x = none) ∨
      (x.goesOn room = !(received room x).isEmpty ∧ x.interrupts = false ∧ x.error? = none ∧
        (Call.recv room).fault? x = none ∧
        (Call.recv room).moved? x = some (received room x).length) := by
  cases hx : x.error? with
  | none =>
    exact .inr (.inr (by simp [Entry.goesOn, Entry.interrupts, Call.fault?, Call.moved?, hx]))
  | some e =>
    cases hi : e.isInterrupted with
    | true =>
      exact .inl (by simp [Entry.goesOn, Entry.interrupts, Call.fault?, Call.moved?, hx, hi])
    | false =>
      exact .inr (.inl ⟨e, by
        simp [Entry.goesOn, Entry.interrupts, Call.fault?, Call.moved?, hx, hi]⟩)

/-- The receives that brought something come before the one that brought nothing, and the connection
is shut down if and only if there is that one. -/
def ClosesAtEnd (ahead : CallKind → List Entry) (plan : List Call) : Prop :=
  ∃ ns, 0 ∉ ns ∧
    (.shutdown .both ∈ cutOff ahead plan ∧ sizes (played ahead (cutOff ahead plan)) = ns ++ [0] ∨
      .shutdown .both ∉ cutOff ahead plan ∧ sizes (played ahead (cutOff ahead plan)) = ns)

/-- A call that moves nothing can be made before. -/
theorem ClosesAtEnd.cons {c : Call} {cs : List Call} (hm : ∀ x, c.moved? x = none)
    (hs : c ≠ .shutdown .both) (h : ClosesAtEnd (rest ahead c) cs) :
    ClosesAtEnd ahead (c :: cs) := by
  cases hf : c.fault? (entry ahead c) with
  | some e =>
    refine ⟨[], List.not_mem_nil, .inr ?_⟩
    rw [cutOff_of_fault hf, played, sizes_cons_of_not_moved (hm _), List.mem_singleton]
    exact ⟨hs.symm, rfl⟩
  | none =>
    obtain ⟨ns, hns, h⟩ := h
    refine ⟨ns, hns, ?_⟩
    rw [cutOff_of_not_fault hf, played, sizes_cons_of_not_moved (hm _), List.mem_cons,
      or_iff_right hs.symm]
    exact h

theorem closesAtEnd_drainCalls (room : Nat) (ahead : CallKind → List Entry) :
    ClosesAtEnd ahead (drainCalls room ahead) := by
  induction ahead using repeat_induction (Entry.goesOn room) rfl (.recv room) with
  | last ahead h =>
    rw [drainCalls_of_stops h]
    refine ⟨[], List.not_mem_nil, ?_⟩
    rcases recv_cases room (entry ahead (.recv room)) with
      ⟨hg, -⟩ | ⟨e, -, -, -, hf, hm⟩ | ⟨hg, -, -, hf, hm⟩
    · rw [h] at hg
      cases hg
    · rw [cutOff_of_fault hf]
      refine .inr ⟨by simp, ?_⟩
      rw [played, sizes_cons_of_not_moved hm, played, sizes_nil]
    · have hb : received room (entry ahead (.recv room)) = [] := by simpa [h] using hg.symm
      rw [cutOff_of_not_fault hf, cutOff_singleton]
      refine .inl ⟨by simp, ?_⟩
      rw [played, sizes_cons_of_moved hm, played, sizes_cons_of_not_moved rfl, hb]
      rfl
  | more ahead h ih =>
    rw [drainCalls_of_goesOn h]
    obtain ⟨ns, hns, ih⟩ := ih
    rcases recv_cases room (entry ahead (.recv room)) with
      ⟨-, -, hf, hm⟩ | ⟨e, hg, -⟩ | ⟨hg, -, -, hf, hm⟩
    · refine ⟨ns, hns, ?_⟩
      rw [cutOff_of_not_fault hf, played, sizes_cons_of_not_moved hm]
      simpa using ih
    · rw [h] at hg
      cases hg
    · have hb : received room (entry ahead (.recv room)) ≠ [] := by simpa [h] using hg.symm
      refine ⟨(received room (entry ahead (.recv room))).length :: ns, ?_, ?_⟩
      · rw [List.mem_cons, not_or]
        exact ⟨fun h0 => hb (List.eq_nil_of_length_eq_zero h0.symm), hns⟩
      · rw [cutOff_of_not_fault hf, played, sizes_cons_of_moved hm]
        simpa using ih

/-- The calls of a server that has accepted a peer. Without a buffer it makes none. -/
def metCalls (room : UInt64) (ahead : CallKind → List Entry) : List Call :=
  if room ≤ largestBuffer then drainCalls room.toNat ahead else []

theorem metCalls_of_le {size : UInt64} (h : size ≤ largestBuffer) :
    metCalls size ahead = drainCalls size.toNat ahead := if_pos h

theorem metCalls_of_lt {size : UInt64} (h : largestBuffer < size) : metCalls size ahead = [] :=
  if_neg (UInt64.not_le.mpr h)

theorem closesAtEnd_metCalls (size : UInt64) (ahead : CallKind → List Entry) :
    ClosesAtEnd ahead (metCalls size ahead) := by
  unfold metCalls
  split
  · exact closesAtEnd_drainCalls _ _
  · exact ⟨[], List.not_mem_nil, .inr ⟨List.not_mem_nil, rfl⟩⟩

/-! ### The loop -/

section Loop

variable {l : Listener Unit} {conn : Handle Unit} {peer : Descriptor} {bytes reads : UInt64} {t : Tape}

/-- How draining a peer ends, by the call that fails of those it makes. -/
inductive DrainEnds (l : Listener Unit) (peer : Descriptor) (bytes reads : UInt64) :
    Option (Call × IoError) → Except Failure DrainReport → Prop where
  | cut (e : IoError) :
      DrainEnds l peer bytes reads (some (.recv l.room.toNat, e)) (.error (.recv peer e))
  | unshut (e : IoError) :
      DrainEnds l peer bytes reads (some (.shutdown .both, e)) (.error (.shutdown peer e))
  | drained : DrainEnds l peer bytes reads none (.ok ⟨l.own, peer, bytes, reads⟩)

theorem advance_leaving (ss : List Unit) (x : Exit (Except Failure DrainReport)) (t : Tape) :
    (Drain.leaving ss x).advance transport t = (.leaving [] x, t) := by
  induction ss with
  | nil =>
    rw [Drain.advance_eq]
    rfl
  | cons s ss ih =>
    rw [Drain.advance_eq]
    exact ih

theorem advance_closing (hc : conn.stage.isConnection = true) (hp : conn.peer = some peer) :
    ∃ o, (Drain.closing l conn peer bytes reads).advance transport t =
        (.leaving [] (.returned o), (walk t [.shutdown .both]).2) ∧
      DrainEnds l peer bytes reads (walk t [.shutdown .both]).1 o := by
  have hany : conn.peerOrAny = peer := by rw [Handle.peerOrAny, hp]; rfl
  rw [Drain.advance_eq, Drain.step, shutdown_eq hc, hany]
  cases hf : (Call.shutdown .both).fault? (entry t.ahead (.shutdown .both)) with
  | some e =>
    rw [walk_of_fault hf]
    exact ⟨_, advance_leaving _ _ _, .unshut e⟩
  | none =>
    rw [walk_of_not_fault hf]
    exact ⟨_, advance_leaving _ _ _, .drained⟩

theorem step_receiving (hc : conn.stage.isConnection = true) :
    (Drain.receiving l conn peer bytes reads).step transport t =
      match transport.recvThrough conn.socket l.room.toNat t with
      | none => none
      | some (.error e, t) =>
        some (.leaving [conn.draining.socket, l.handle.socket]
          (.returned (.error (.recv conn.peerOrAny e))), t)
      | some (.ok [], t) => some (.closing l conn.draining peer bytes reads, t)
      | some (.ok (b :: bs), t) =>
        some (.receiving l conn.draining peer (bytes + .ofNat (b :: bs).length) (reads + 1), t) := by
  simp only [Drain.step, Handle.recv, Operation.admittedIn, hc, if_true]
  cases transport.recvThrough conn.socket l.room.toNat t with
  | none => rfl
  | some x =>
    obtain ⟨r, t⟩ := x
    cases r with
    | error e => rfl
    | ok bytes => cases bytes <;> rfl

theorem isConnection_draining (hc : conn.stage.isConnection = true) :
    conn.draining.stage.isConnection = true := by
  unfold Handle.draining
  split
  · rfl
  · exact hc

theorem peer_draining (conn : Handle Unit) : conn.draining.peer = conn.peer := by
  unfold Handle.draining
  split <;> rfl

/-- From its first receive on a server makes the calls of its plan up to the first that fails, and
its counts are those of the receives. -/
theorem advance_receiving (l : Listener Unit) (peer : Descriptor)
    (ahead : CallKind → List Entry) :
    ∀ (t : Tape) (conn : Handle Unit) (bytes reads : UInt64), t.ahead = ahead →
      conn.stage.isConnection = true → conn.peer = some peer →
      ∃ o, (Drain.receiving l conn peer bytes reads).advance transport t =
          (.leaving [] (.returned o), (walk t (drainCalls l.room.toNat ahead)).2) ∧
        DrainEnds l peer (bytes + .ofNat (sizes (played ahead (drainCalls l.room.toNat ahead))).sum)
          (reads + .ofNat ((sizes (played ahead (drainCalls l.room.toNat ahead))).countP (· ≠ 0)))
          (walk t (drainCalls l.room.toNat ahead)).1 o := by
  induction ahead using repeat_induction (Entry.goesOn l.room.toNat) rfl (.recv l.room.toNat) with
  | last ahead h =>
    rintro t conn bytes reads rfl hc hp
    have hany : conn.peerOrAny = peer := by rw [Handle.peerOrAny, hp]; rfl
    rw [drainCalls_of_stops h, Drain.advance_eq, step_receiving hc, recvThrough_eq, play_eq]
    rcases recv_cases l.room.toNat (entry t.ahead (.recv l.room.toNat)) with
      ⟨hg, -⟩ | ⟨e, -, hi, hx, hf, -⟩ | ⟨hg, hi, hx, hf, hm⟩
    · rw [h] at hg
      cases hg
    · simp only [hi, hx, Bool.false_eq_true, if_false, hany]
      rw [walk_of_fault hf]
      exact ⟨_, advance_leaving _ _ _, .cut e⟩
    · have hb : received l.room.toNat (entry t.ahead (.recv l.room.toNat)) = [] := by simpa [h] using hg.symm
      simp only [hi, hx, hb, Bool.false_eq_true, if_false]
      rw [walk_of_not_fault hf, played, sizes_cons_of_moved hm, played,
        sizes_cons_of_not_moved rfl, hb]
      obtain ⟨o, ho, he⟩ : ∃ o, (Drain.closing l conn.draining peer bytes reads).advance transport
          (t.take (.recv l.room.toNat)).2 = (.leaving [] (.returned o), _) ∧
          DrainEnds l peer bytes reads _ o :=
        advance_closing (isConnection_draining hc) (by rw [peer_draining, hp])
      exact ⟨o, ho, by simpa [played] using he⟩
  | more ahead h ih =>
    rintro t conn bytes reads rfl hc hp
    rw [drainCalls_of_goesOn h]
    rcases recv_cases l.room.toNat (entry t.ahead (.recv l.room.toNat)) with
      ⟨-, hi, hf, hm⟩ | ⟨e, hg, -⟩ | ⟨hg, hi, hx, hf, hm⟩
    · -- the same step, from the tape that the interrupted receive leaves
      have hstep : (Drain.receiving l conn peer bytes reads).step transport t =
          (Drain.receiving l conn peer bytes reads).step transport (t.take (.recv l.room.toNat)).2 := by
        rw [step_receiving hc, step_receiving hc, recvThrough_eq, if_pos hi]
      rw [walk_of_not_fault hf, played, sizes_cons_of_not_moved hm]
      obtain ⟨o, ho, he⟩ := ih (t.take (.recv l.room.toNat)).2 conn bytes reads rfl hc hp
      refine ⟨o, ?_, he⟩
      rw [Drain.advance_eq, ← hstep] at ho
      rw [Drain.advance_eq]
      cases hs : (Drain.receiving l conn peer bytes reads).step transport t with
      | none =>
        rw [hs] at ho
        cases ho
      | some x =>
        rw [hs] at ho
        exact ho
    · rw [h] at hg
      cases hg
    · have hb : received l.room.toNat (entry t.ahead (.recv l.room.toNat)) ≠ [] := by simpa [h] using hg.symm
      obtain ⟨b, bs, hbs⟩ := List.exists_cons_of_ne_nil hb
      rw [walk_of_not_fault hf, played, sizes_cons_of_moved hm, Drain.advance_eq,
        step_receiving hc, recvThrough_eq, play_eq]
      simp only [hi, hx, hbs, Bool.false_eq_true, if_false]
      obtain ⟨o, ho, he⟩ := ih (t.take (.recv l.room.toNat)).2 conn.draining
        (bytes + .ofNat (b :: bs).length) (reads + 1) rfl (isConnection_draining hc)
        (by rw [peer_draining, hp])
      refine ⟨o, ho, ?_⟩
      simpa [UInt64.ofNat_add, UInt64.add_assoc, UInt64.add_comm 1] using he

end Loop

end Script

/-! ### The whole run -/

open Script

namespace Server

/-- The calls of a server that receives `n` times. Without a buffer it makes none after its
accept. -/
def Config.calls (c : Config) (n : Nat) : List Call :=
  [.socket, .bind c.bind, .listen c.backlog, .localAddr, .accept] ++
    if c.room ≤ largestBuffer then
      List.replicate n (.recv c.room.toNat) ++ [.shutdown .both]
    else []

end Server

namespace Script

/-- The peer that a script lets connect. -/
def toldPeer (ahead : CallKind → List Entry) : Descriptor :=
  addressOr defaultPeer (entry ahead .accept)

/-- How the run of a server ends, by the call that fails of those it makes. -/
inductive ServerEnds (c : Server.Config) (r : DrainReport) :
    Option (Call × IoError) → Exit (Except Failure DrainReport) → Prop where
  | unmade (e : IoError) : ServerEnds c r (some (.socket, e)) (.returned (.error (.socket e)))
  | unbound (e : IoError) :
      ServerEnds c r (some (.bind c.bind, e)) (.returned (.error (.bind c.bind e)))
  | deaf (e : IoError) :
      ServerEnds c r (some (.listen c.backlog, e))
        (.returned (.error (.listen c.bind c.backlog e)))
  | aborted (e : IoError) :
      ServerEnds c r (some (.accept, e)) (.returned (.error (.accept c.bind e)))
  | cut (e : IoError) :
      ServerEnds c r (some (.recv c.room.toNat, e)) (.returned (.error (.recv r.peer e)))
  | unshut (e : IoError) :
      ServerEnds c r (some (.shutdown .both, e)) (.returned (.error (.shutdown r.peer e)))
  | drained (h : c.room ≤ largestBuffer) : ServerEnds c r none (.returned (.ok r))
  | panicked (h : largestBuffer < c.room) : ServerEnds c r none .panicked

/-- The report of a server that received in these sizes. -/
def reportOf (own peer : Descriptor) (moved : List Nat) : DrainReport :=
  ⟨own, peer, .ofNat moved.sum, .ofNat (moved.countP (· ≠ 0))⟩

/-- The calls that a server makes over a script if none of them fails. -/
def serverPlan (c : Server.Config) (ahead : CallKind → List Entry) : List Call :=
  c.calls (tries (Entry.goesOn c.room.toNat) (ahead .recv))

theorem ServerEnds.of_drain {c : Server.Config} {l : Listener Unit} {r : DrainReport}
    {x : Option (Call × IoError)} {o : Except Failure DrainReport}
    (hl : l.room = c.room) (hown : l.own = r.own) (hfit : c.room ≤ largestBuffer)
    (h : DrainEnds l r.peer r.bytesReceived r.reads x o) : ServerEnds c r x (.returned o) := by
  cases h with
  | cut e =>
    rw [hl]
    exact .cut e
  | unshut e => exact .unshut e
  | drained =>
    rw [hown]
    exact .drained hfit

/-- A listener makes the calls of its plan up to the first that fails. -/
theorem acceptAndDrain_eq (c : Server.Config) (l : Listener Unit) (t : Tape)
    (hl : l.handle = ⟨(), .listening, some c.bind, none⟩) (hroom : l.room = c.room) :
    ∃ x, l.acceptAndDrain transport t =
        some (x, (walk t (.accept :: metCalls c.room t.ahead)).2) ∧
      ServerEnds c
        (reportOf l.own (toldPeer t.ahead)
          (sizes (played t.ahead (.accept :: metCalls c.room t.ahead))))
        (walk t (.accept :: metCalls c.room t.ahead)).1 x := by
  have hcall : transport.call (.accept l.handle.socket) t =
      play t .accept fun x => ((), addressOr defaultPeer x) := rfl
  have hany : l.handle.ownOrAny = c.bind := by rw [hl]; rfl
  rw [Listener.acceptAndDrain, Drain.advance_eq]
  simp only [Drain.step, Handle.accept, hcall,
    play_eq_of_strict (fun _ => rfl : ∀ x, Call.accept.fault? x = x.error?), hany]
  rw [if_pos (by rw [hl]; rfl)]
  cases hf : Call.accept.fault? (entry t.ahead .accept) with
  | some e =>
    simp only [advance_leaving]
    rw [walk_of_fault hf]
    exact ⟨_, rfl, .aborted e⟩
  | none =>
    rw [walk_of_not_fault hf, played, sizes_cons_of_not_moved rfl]
    by_cases hfit : c.room ≤ largestBuffer
    · obtain ⟨o, ho, he⟩ := advance_receiving l (toldPeer t.ahead) (rest t.ahead .accept)
        (t.take .accept).2 ⟨(), .accepted, l.handle.own, some (toldPeer t.ahead)⟩ 0 0 rfl rfl rfl
      have hdrain : metCalls c.room t.ahead =
          drainCalls l.room.toNat (rest t.ahead .accept) := by
        rw [metCalls_of_le hfit, hroom]
        rfl
      rw [hdrain]
      rw [UInt64.zero_add, UInt64.zero_add] at he
      refine ⟨.returned o, ?_, .of_drain hroom rfl hfit he⟩
      rw [toldPeer] at ho
      simp only [Drain.met, if_pos (hroom ▸ hfit), ho]
      rfl
    · have hlt := UInt64.not_le.mp hfit
      rw [metCalls_of_lt hlt]
      refine ⟨.panicked, ?_, .panicked hlt⟩
      simp only [Drain.met, if_neg (hroom ▸ hfit), advance_leaving]
      rfl

/-- A server makes the calls of its plan up to the first that fails. -/
theorem run_server_eq (c : Server.Config) (t : Tape) :
    ∃ x, Server.run transport c t = some (x, (walk t (serverPlan c t.ahead)).2) ∧
      ServerEnds c
        (reportOf ((toldOwn? t.ahead).getD c.bind) (toldPeer t.ahead)
          (sizes (played t.ahead (serverPlan c t.ahead))))
        (walk t (serverPlan c t.ahead)).1 x := by
  -- the entries of a kind are still there when the calls before it have taken theirs
  have hplan : serverPlan c t.ahead =
      .socket :: .bind c.bind :: .listen c.backlog :: .localAddr :: .accept ::
        metCalls c.room
          (rest (rest (rest (rest t.ahead .socket) (.bind c.bind)) (.listen c.backlog))
            .localAddr) := rfl
  rw [hplan, Server.run, Server.listen, create_eq]
  cases h₁ : Call.socket.fault? (entry t.ahead .socket) with
  | some e =>
    rw [walk_of_fault h₁]
    exact ⟨_, rfl, .unmade e⟩
  | none =>
    rw [walk_of_not_fault h₁, played, sizes_cons_of_not_moved rfl]
    simp only [bind_eq]
    cases h₂ : (Call.bind c.bind).fault? (entry (t.take .socket).2.ahead (.bind c.bind)) with
    | some e =>
      rw [walk_of_fault h₂]
      exact ⟨_, rfl, .unbound e⟩
    | none =>
      rw [walk_of_not_fault h₂, played, sizes_cons_of_not_moved rfl]
      simp only [listen_eq]
      cases h₃ : (Call.listen c.backlog).fault?
          (entry ((t.take .socket).2.take (.bind c.bind)).2.ahead (.listen c.backlog)) with
      | some e =>
        rw [walk_of_fault h₃]
        exact ⟨_, rfl, .deaf e⟩
      | none =>
        rw [walk_of_not_fault h₃, played, sizes_cons_of_not_moved rfl, walk_of_not_fault rfl,
          played, sizes_cons_of_not_moved rfl]
        simp only [localAddr_eq]
        have hown : ((toldOwn? t.ahead).or (some c.bind)).getD c.bind =
            (toldOwn? t.ahead).getD c.bind := by
          cases toldOwn? t.ahead <;> rfl
        rw [← hown]
        exact acceptAndDrain_eq c ⟨⟨(), .listening, some c.bind, none⟩, _, _⟩ _ rfl rfl

theorem closesAtEnd_serverPlan (c : Server.Config) (script : CallKind → List Entry) :
    ClosesAtEnd script (serverPlan c script) := by
  have hmet := closesAtEnd_metCalls c.room
    (rest (rest (rest (rest (rest script .socket) (.bind c.bind)) (.listen c.backlog)) .localAddr)
      .accept)
  have haccept := hmet.cons (fun _ => rfl) (by simp)
  have hlocal := haccept.cons (fun _ => rfl) (by simp)
  have hlisten := hlocal.cons (fun _ => rfl) (by simp)
  have hbind := hlisten.cons (fun _ => rfl) (by simp)
  exact hbind.cons (fun _ => rfl) (by simp)

end Script

/-- The address that a failed call of a server concerns. -/
def Server.Config.concerned (c : Server.Config) (peer : Descriptor) : CallKind → Option Descriptor
  | .bind | .listen | .accept => some c.bind
  | .recv | .shutdown => some peer
  | .socket | .localAddr | .connect | .send => none

namespace Script

/-- The failure of a server is charged to the call that failed. -/
theorem ServerEnds.charged {c : Server.Config} {r : DrainReport} {call : Call} {e : IoError}
    {f : Failure} (h : ServerEnds c r (some (call, e)) (.returned (.error f))) :
    f.step.name = call.kind.name ∧ f.cause? = some e ∧
      f.address? = c.concerned r.peer call.kind := by
  cases h <;> exact ⟨rfl, rfl, rfl⟩

/-- What a server leaves behind that makes up to `n` receives: its calls are its plan, broken off
right after the first that fails, and it fails if and only if one does: with the step, the error and
the address of that call, the last one. It panics if none fails up to its accept and no buffer is as
large as it asks. Otherwise its report counts the receives, of which the last and no other brought
nothing. The connection is shut down if and only if there was that one. -/
structure Drains (c : Server.Config) (script : CallKind → List Entry) (n : Nat)
    (x : Exit (Except Failure DrainReport)) (log : List Call) : Prop where
  planned : log = cutOff script (c.calls n)
  failed_iff : (∃ f, x = .returned (.error f)) ↔ ∃ y ∈ played script log, y.1.fault? y.2 ≠ none
  failed : ∀ o f, x = .returned o → o = .error f → outcomeCode o = -1 ∧ ∃ before call e,
    played script log = before ++ [(call, .fail e)] ∧ call.fault? (.fail e) = some e ∧
    f.step.name = call.word ∧ f.cause? = some e ∧
    f.address? = c.concerned (toldPeer script) call.kind
  panicked_iff : x = .panicked ↔
    largestBuffer < c.room ∧ ∀ y ∈ played script log, y.1.fault? y.2 = none
  panicked : x = .panicked →
    log = [.socket, .bind c.bind, .listen c.backlog, .localAddr, .accept]
  succeeded : ∀ r, x = .returned (.ok r) → c.room ≤ largestBuffer ∧ log = c.calls n ∧
    r.own = (toldOwn? script).getD c.bind ∧ r.peer = toldPeer script ∧
    r.bytesReceived = .ofNat (sizes (played script log)).sum ∧
    r.reads = .ofNat ((sizes (played script log)).countP (· ≠ 0)) ∧
    ∃ ns, 0 ∉ ns ∧ sizes (played script log) = ns ++ [0]
  shut_iff : .shutdown .both ∈ log ↔ 0 ∈ sizes (played script log)

section Ends

variable {c : Server.Config} {script : CallKind → List Entry} {x : Exit (Except Failure DrainReport)}

theorem ClosesAtEnd.shut_iff {plan : List Call} (h : ClosesAtEnd script plan) :
    .shutdown .both ∈ cutOff script plan ↔ 0 ∈ sizes (played script (cutOff script plan)) := by
  obtain ⟨ns, hns, ⟨hmem, hs⟩ | ⟨hmem, hs⟩⟩ := h
  · simp [hmem, hs]
  · simp [hmem, hs, hns]

theorem log_serverPlan (c : Server.Config) (script : CallKind → List Entry) :
    (walk (Tape.ofEntries script) (serverPlan c script)).2.log =
      cutOff script (serverPlan c script) := log_walk _ _

theorem calls_of_lt (h : largestBuffer < c.room) (n : Nat) :
    c.calls n = [.socket, .bind c.bind, .listen c.backlog, .localAddr, .accept] := by
  rw [Server.Config.calls, if_neg (UInt64.not_le.mpr h), List.append_nil]

theorem drains_of_fault {r : DrainReport} {call : Call} {e : IoError}
    (hw : (walk (Tape.ofEntries script) (serverPlan c script)).1 = some (call, e))
    (he : ServerEnds c r (some (call, e)) x) (hr : r.peer = toldPeer script) :
    Drains c script (tries (Entry.goesOn c.room.toNat) (script .recv)) x
      (cutOff script (serverPlan c script)) := by
  obtain ⟨hf, before, hplayed, -⟩ := of_walk_eq_some hw
  have hplayed : played script (cutOff script (serverPlan c script)) =
      before ++ [(call, .fail e)] := hplayed
  have hfault : ∃ y ∈ played script (cutOff script (serverPlan c script)),
      y.1.fault? y.2 ≠ none := ⟨(call, .fail e), by simp [hplayed], by simp [hf]⟩
  obtain ⟨f, rfl⟩ : ∃ f, x = .returned (.error f) := by cases he <;> exact ⟨_, rfl⟩
  obtain ⟨hstep, hcause, haddress⟩ := he.charged
  exact {
    planned := rfl
    failed_iff := ⟨fun _ => hfault, fun _ => ⟨f, rfl⟩⟩
    failed := by
      rintro o g ⟨⟩ ⟨⟩
      exact ⟨rfl, before, call, e, hplayed, hf, hstep.trans call.word_eq.symm, hcause,
        hr ▸ haddress⟩
    panicked_iff := by
      refine ⟨by simp, ?_⟩
      rintro ⟨-, hnone⟩
      obtain ⟨y, hy, hf⟩ := hfault
      exact absurd (hnone y hy) hf
    panicked := by simp
    succeeded := by simp
    shut_iff := (closesAtEnd_serverPlan c script).shut_iff }

theorem drains_of_success (hfit : c.room ≤ largestBuffer)
    (hw : (walk (Tape.ofEntries script) (serverPlan c script)).1 = none) :
    Drains c script (tries (Entry.goesOn c.room.toNat) (script .recv))
      (.returned (.ok (reportOf ((toldOwn? script).getD c.bind) (toldPeer script)
        (sizes (played script (serverPlan c script))))))
      (cutOff script (serverPlan c script)) := by
  obtain ⟨hcut, hnone⟩ := of_walk_eq_none hw
  have hcut : cutOff script (serverPlan c script) = serverPlan c script := hcut
  have hshut : .shutdown .both ∈ cutOff script (serverPlan c script) := by
    rw [hcut]
    simp [serverPlan, Server.Config.calls, hfit]
  obtain ⟨ns, hns, ⟨-, hs⟩ | ⟨hmem, -⟩⟩ := closesAtEnd_serverPlan c script
  · exact {
      planned := rfl
      failed_iff := by
        refine ⟨by simp, ?_⟩
        rintro ⟨y, hy, hf⟩
        rw [hcut] at hy
        exact absurd (hnone y hy) hf
      failed := by
        rintro o f ⟨⟩ hf
        cases hf
      panicked_iff := by simp [UInt64.not_lt.mpr hfit]
      panicked := by simp
      succeeded := by
        rintro r ⟨⟩
        rw [hcut] at hs ⊢
        exact ⟨hfit, rfl, rfl, rfl, rfl, rfl, ns, hns, hs⟩
      shut_iff := (closesAtEnd_serverPlan c script).shut_iff }
  · exact absurd hshut hmem

theorem drains_of_panic (hlt : largestBuffer < c.room)
    (hw : (walk (Tape.ofEntries script) (serverPlan c script)).1 = none) :
    Drains c script (tries (Entry.goesOn c.room.toNat) (script .recv)) .panicked
      (cutOff script (serverPlan c script)) := by
  obtain ⟨hcut, hnone⟩ := of_walk_eq_none hw
  have hcut : cutOff script (serverPlan c script) = serverPlan c script := hcut
  exact {
    planned := rfl
    failed_iff := by
      refine ⟨by simp, ?_⟩
      rintro ⟨y, hy, hf⟩
      rw [hcut] at hy
      exact absurd (hnone y hy) hf
    failed := by simp
    panicked_iff := by
      rw [hcut]
      exact ⟨fun _ => ⟨hlt, hnone⟩, fun _ => rfl⟩
    panicked := fun _ => hcut.trans (calls_of_lt hlt _)
    succeeded := by simp
    shut_iff := (closesAtEnd_serverPlan c script).shut_iff }

end Ends

end Script
end Handoff
