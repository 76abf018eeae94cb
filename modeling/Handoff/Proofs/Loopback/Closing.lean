import Handoff.Proofs.Loopback.Hangup

/-!
Ending directions of a connection. What several ends come to is what their directions come to
together, and what has been ended stays so. The main statement is `closing_of_run`.
-/
namespace Handoff

namespace Direction

def reading (how : Direction) : Bool := how ≠ .write

def writing (how : Direction) : Bool := how ≠ .read

end Direction

namespace Loopback

namespace Connection

/-- A connection that a side no longer reads from, or no longer writes to. -/
def ended (conn : Connection) (side : Side) (reading writing : Bool) : Connection :=
  (conn.setIncoming side ((conn.incoming side).closing reading false)).setOutgoing side
    ((conn.outgoing side).closing false writing)

theorem shut_eq_ended (conn : Connection) (side : Side) (how : Direction) :
    conn.shut side how = conn.ended side how.reading how.writing := by
  cases side <;> cases how <;> simp [shut, shutRead, shutWrite, ended, setOutgoing, setIncoming,
    outgoing, incoming, Side.other, Direction.reading, Direction.writing, Pipe.closing,
    Pipe.closeRead, Pipe.closeWrite]

@[simp] theorem ended_false (conn : Connection) (side : Side) :
    conn.ended side false false = conn := by
  cases side <;> simp [ended, setOutgoing, setIncoming, outgoing, incoming, Side.other]

/-- The order in which directions are ended does not matter, nor how often. -/
theorem ended_ended (conn : Connection) (side : Side) (r r' w w' : Bool) :
    (conn.ended side r w).ended side r' w' = conn.ended side (r || r') (w || w') := by
  cases side <;> simp [ended, setOutgoing, setIncoming, outgoing, incoming, Side.other,
    Pipe.closing_closing]

end Connection

namespace Network

open Moment

variable {n n' : Network} {tr : List Moment} {s c : Nat} {side : Side} {own : Descriptor}

/-- Ends directions one after the other, until one cannot be ended. -/
def shutdowns (n : Network) (s : Nat) : List Direction → Reply Unit
  | [] => some (.ok (), n)
  | how :: hows =>
    match n.shutdown s how with
    | some (.ok (), n) => n.shutdowns s hows
    | some (.error e, n) => some (.error e, n)
    | none => none

/-- Several ends at a connected socket all succeed, and come to one. -/
theorem shutdowns_eq (hs : n.slot s = .connected own c side) (hows : List Direction) :
    n.shutdowns s hows = some (.ok (), n.modifyConnection c
      (·.ended side (hows.any Direction.reading) (hows.any Direction.writing))) := by
  induction hows generalizing n with
  | nil =>
    have hid : (fun conn : Connection => conn.ended side false false) = id := by
      funext conn
      exact conn.ended_false side
    simp only [shutdowns, List.any_nil, modifyConnection, hid, List.modify_id]
  | cons how hows ih =>
    have hcomp : (fun conn : Connection =>
          conn.ended side (hows.any Direction.reading) (hows.any Direction.writing)) ∘
        (fun conn : Connection => conn.shut side how) =
        fun conn : Connection => conn.ended side ((how :: hows).any Direction.reading)
          ((how :: hows).any Direction.writing) := by
      funext conn
      simp only [Function.comp_apply, Connection.shut_eq_ended, Connection.ended_ended,
        List.any_cons]
    rw [shutdowns, shutdown_eq hs]
    dsimp only
    rw [ih (n := n.modifyConnection c (·.shut side how)) hs]
    simp only [modifyConnection, List.modify_modify_eq, hcomp]

/-- A direction that is ended stays so, and no bytes are added to it. -/
theorem closed_of_run (hw : Wired n) (h : Run n tr n') (c : Nat) (side : Side) :
    ((n.pipe c side).writeClosed = true → (n'.pipe c side).writeClosed = true) ∧
    ((n.pipe c side).readClosed = true → (n'.pipe c side).readClosed = true) ∧
    ((n.pipe c side).writeClosed = true ∨ (n.pipe c side).readClosed = true →
      tr.flatMap (sentTo c side) = [] ∧ (n'.pipe c side).buffer <:+ (n.pipe c side).buffer) := by
  induction h with
  | nil => exact ⟨id, id, fun _ => ⟨rfl, List.suffix_refl _⟩⟩
  | snoc hr hs ih =>
    obtain ⟨hwrite, hread, hkept⟩ := ih
    have hm := move_of_change (wired_of_run hr hw) (change_of_step hs) c side
    refine ⟨fun hc => hm.writeClosed (hwrite hc), fun hc => hm.readClosed (hread hc), ?_⟩
    intro hc
    obtain ⟨hsent, hsuffix⟩ := hkept hc
    obtain ⟨hnone, hless⟩ := hm.of_closed (hc.imp hwrite hread)
    rw [List.flatMap_append, hsent, List.flatMap_singleton, hnone]
    exact ⟨rfl, hless.trans hsuffix⟩

theorem pipe_shutdown (hw : Wired n) (hs : n.slot s = .connected own c side) (how : Direction) :
    ∃ n', n.shutdown s how = some (.ok (), n') ∧ n'.slots = n.slots ∧
      n'.connections.length = n.connections.length ∧
      ∀ k a, n'.pipe k a = (n.pipe k a).closing (decide (how ≠ .write ∧ c = k ∧ side = a))
        (decide (how ≠ .read ∧ c = k ∧ side = a.other)) := by
  have hl : c < n.connections.length := hw.made _ (mem_ends_of_slot (end?_of_slot hs))
  refine ⟨_, shutdown_eq hs how, rfl, List.length_modify _ _ _, ?_⟩
  intro k a
  exact pipe_shut rfl hl k a

theorem shutdown_write {cid : UInt32} (h : Run (ofCid cid) tr n)
    (hs : n.slot s = .connected own c side) :
    ∃ n', n.shutdown s .write = some (.ok (), n') ∧
      n'.pipe c side.other = { n.pipe c side.other with writeClosed := true } ∧
      (∀ k a, (k, a) ≠ (c, side.other) → n'.pipe k a = n.pipe k a) ∧
      (∀ room, (n'.recv s room).map Prod.fst = (n.recv s room).map Prod.fst) ∧
      ∀ t own' room, n'.slot t = .connected own' c side.other →
        ∃ m, n'.recv t room = some (.ok ((due tr c side.other).take room), m) := by
  have hw := wired_of_run h (wired_ofCid cid)
  obtain ⟨n', he, hslots, hlen, hp⟩ := pipe_shutdown hw hs .write
  have hl : c < n.connections.length := hw.made _ (mem_ends_of_slot (end?_of_slot hs))
  have hother : n'.pipe c side.other = { n.pipe c side.other with writeClosed := true } := by
    rw [hp]
    simp [Pipe.closing, other_other]
  have hrest : ∀ k a, (k, a) ≠ (c, side.other) → n'.pipe k a = n.pipe k a := by
    intro k a hne
    have hk : ¬(c = k ∧ side = a.other) := by
      rintro ⟨rfl, rfl⟩
      exact hne (by rw [other_other])
    rw [hp]
    simp [hk]
  refine ⟨n', he, hother, hrest, ?_, ?_⟩
  · intro room
    have hs' : n'.slot s = .connected own c side := by rw [slot, hslots, ← slot, hs]
    have hown : n'.pipe c side = n.pipe c side := by
      refine hrest c side ?_
      cases side <;> simp [Side.other]
    rw [recv_eq hs' (hlen ▸ hl), recv_eq hs hl, hown]
    cases (n.pipe c side).read room <;> rfl
  · intro t own' room ht
    have hclosed : (n'.pipe c side.other).writeClosed = true := by rw [hother]
    obtain ⟨m, hm⟩ := recv_of_closed ht (hlen ▸ hl) hclosed room
    refine ⟨m, ?_⟩
    rw [hm, hother, ← buffer_eq_due h]

theorem shutdown_read {cid : UInt32} (h : Run (ofCid cid) tr n)
    (hs : n.slot s = .connected own c side) :
    ∃ n', n.shutdown s .read = some (.ok (), n') ∧ (n.pipe c side).buffer = due tr c side ∧
      n'.pipe c side = { n.pipe c side with buffer := [], readClosed := true } ∧
      ∀ k a, (k, a) ≠ (c, side) → n'.pipe k a = n.pipe k a := by
  have hw := wired_of_run h (wired_ofCid cid)
  obtain ⟨n', he, -, -, hp⟩ := pipe_shutdown hw hs .read
  refine ⟨n', he, buffer_eq_due h c side, ?_, ?_⟩
  · rw [hp]
    simp [Pipe.closing]
  · intro k a hne
    have hk : ¬(c = k ∧ side = a) := by
      rintro ⟨rfl, rfl⟩
      exact hne rfl
    rw [hp]
    simp [hk]

/-- Any number of ends at a connected socket succeed, and what they leave depends on which
directions they name together, both standing for the one and the other. A socket that stops writing
leaves what it has sent to be received, and goes on receiving; one that stops reading gives up just
what was still due to it. A pipe that is closed for reading is empty, and whatever follows, what is
closed stays closed and takes no more bytes. -/
theorem closing_of_run {cid : UInt32} (h : Run (ofCid cid) tr n) :
    (∀ s own c side, n.slot s = .connected own c side →
      (∀ hows, ∃ n', n.shutdowns s hows = some (.ok (), n') ∧
        ∀ hows', hows'.any Direction.reading = hows.any Direction.reading →
          hows'.any Direction.writing = hows.any Direction.writing →
          n.shutdowns s hows' = some (.ok (), n')) ∧
      (∃ n', n.shutdown s .write = some (.ok (), n') ∧
        n'.pipe c side.other = { n.pipe c side.other with writeClosed := true } ∧
        (∀ k a, (k, a) ≠ (c, side.other) → n'.pipe k a = n.pipe k a) ∧
        (∀ room, (n'.recv s room).map Prod.fst = (n.recv s room).map Prod.fst) ∧
        ∀ t own' room, n'.slot t = .connected own' c side.other →
          ∃ m, n'.recv t room = some (.ok ((due tr c side.other).take room), m)) ∧
      ∃ n', n.shutdown s .read = some (.ok (), n') ∧ (n.pipe c side).buffer = due tr c side ∧
        n'.pipe c side = { n.pipe c side with buffer := [], readClosed := true } ∧
        ∀ k a, (k, a) ≠ (c, side) → n'.pipe k a = n.pipe k a) ∧
    (∀ c side, (n.pipe c side).readClosed = true → (n.pipe c side).buffer = []) ∧
    ∀ tr' n', Run n tr' n' → ∀ c side,
      ((n.pipe c side).writeClosed = true → (n'.pipe c side).writeClosed = true) ∧
      ((n.pipe c side).readClosed = true → (n'.pipe c side).readClosed = true) ∧
      ((n.pipe c side).writeClosed = true ∨ (n.pipe c side).readClosed = true →
        tr'.flatMap (sentTo c side) = [] ∧ (n'.pipe c side).buffer <:+ (n.pipe c side).buffer) := by
  have hw := wired_of_run h (wired_ofCid cid)
  refine ⟨?_, ?_, fun tr' n' h' => closed_of_run hw h'⟩
  · intro s own c side hs
    refine ⟨?_, shutdown_write h hs, shutdown_read h hs⟩
    intro hows
    refine ⟨_, shutdowns_eq hs hows, ?_⟩
    intro hows' hread hwrite
    rw [shutdowns_eq hs, hread, hwrite]
  · intro c side hr
    have hf := flow_ofCid h c side
    exact hf.cleared (hf.readClosed.symm.trans hr)

/-- Both ends have sent before the caller ends both directions, one at a time or together. What it
has sent can still be received, and what it has not received is gone. -/
theorem closing_of_talking_run :
    ∃ tr n, Run (ofCid 3) tr n ∧
      (∃ n', n.shutdowns 1 [.write, .read, .write] = some (.ok (), n') ∧
        n.shutdowns 1 [.both] = some (.ok (), n')) ∧
      (∃ n', n.shutdown 1 .write = some (.ok (), n') ∧
        ∀ room, ∃ m, n'.recv 2 room = some (.ok (([104, 105] : List UInt8).take room), m)) ∧
      ∃ n', n.shutdown 1 .read = some (.ok (), n') ∧ (n.pipe 0 .caller).buffer = [1, 2, 3] ∧
        ∀ tr' m, Run n' tr' m → (m.pipe 0 .caller).buffer = [] := by
  have h := Run.nil (n := ofCid 3)
    |>.snoc (.call (q := .socket) rfl)
    |>.snoc (.call (q := .bind 0 (Descriptor.bind 3 1234)) rfl)
    |>.snoc (.call (q := .listen 0 1) rfl)
    |>.snoc (.call (q := .socket) rfl)
    |>.snoc (.call (q := .connect 1 (Descriptor.remote 3 1234)) rfl)
    |>.snoc (.call (q := .accept 0) rfl)
    |>.snoc (.call (q := .send 1 [104, 105]) rfl)
    |>.snoc (.call (q := .send 2 [1, 2, 3]) rfl)
  obtain ⟨hends, -, -⟩ := closing_of_run h
  obtain ⟨hall, ⟨n₁, hwrite, -, -, -, hdue⟩, n₂, hread, hbuffer, hpipe, -⟩ :=
    hends 1 _ 0 .caller rfl
  obtain ⟨n', he, hsame⟩ := hall [.write, .read, .write]
  refine ⟨_, _, h, ⟨n', he, hsame [.both] rfl rfl⟩, ⟨n₁, hwrite, ?_⟩, n₂, hread, hbuffer, ?_⟩
  · cases hwrite
    exact fun room => hdue 2 _ room rfl
  · intro tr' m h'
    have h₂ := h.snoc (.call (q := .shutdown 1 .read) hread)
    obtain ⟨-, hempty, hlater⟩ := closing_of_run h₂
    have hclosed : (n₂.pipe 0 .caller).readClosed = true := by rw [hpipe]
    obtain ⟨-, hless⟩ := (hlater tr' m h' 0 .caller).2.2 (.inr hclosed)
    rw [hempty 0 .caller hclosed] at hless
    exact List.suffix_nil.mp hless

end Network
end Loopback
end Handoff
