import Handoff.Proofs.Loopback.Closing
import Handoff.Proofs.Loopback.Isolation

/-!
Parting from a connection. Whoever is at the other end cannot tell whether a socket was given up or
has ended both of its directions. The main statement is `parting_of_run`.
-/
namespace Handoff.Loopback

/-- What is asked at an end of a connection, with the answer. -/
abbrev Talk := Σ α : Type, Transfer α × Except IoError α

/-- A question without its answer. -/
def Talk.asked (x : Talk) : Σ α : Type, Transfer α := ⟨x.1, x.2.1⟩

/-- What a connection becomes when one question after the other is answered at one of its ends. -/
inductive Conversation (side : Side) (conn : Connection) : List Talk → Connection → Prop where
  | nil : Conversation side conn [] conn
  | snoc {talk : List Talk} {conn' conn'' : Connection} {α : Type} {q : Transfer α}
      {r : Except IoError α} (h : Conversation side conn talk conn')
      (ha : conn'.answer side q = some (r, conn'')) :
      Conversation side conn (talk ++ [⟨α, q, r⟩]) conn''

theorem Conversation.unique {side : Side} {conn conn₁ conn₂ : Connection} {talk₁ talk₂ : List Talk}
    (h₁ : Conversation side conn talk₁ conn₁) (h₂ : Conversation side conn talk₂ conn₂)
    (hq : talk₁.map Talk.asked = talk₂.map Talk.asked) : talk₁ = talk₂ ∧ conn₁ = conn₂ := by
  induction h₁ generalizing talk₂ conn₂ with
  | nil =>
    cases h₂ with
    | nil => exact ⟨rfl, rfl⟩
    | snoc _ _ => simp at hq
  | snoc _ ha ih =>
    cases h₂ with
    | nil => simp at hq
    | snoc h ha' =>
      rw [List.map_append, List.map_append] at hq
      obtain ⟨hbefore, hlast⟩ := List.append_inj' hq rfl
      obtain ⟨rfl, rfl⟩ := ih h hbefore
      simp only [List.map_cons, List.map_nil, Talk.asked, List.cons.injEq, and_true] at hlast
      cases hlast
      rw [ha, Option.some.injEq, Prod.mk.injEq] at ha'
      obtain ⟨rfl, rfl⟩ := ha'
      exact ⟨rfl, rfl⟩

/-- A connection that one side has parted from: it writes no more, and what is written to it is
lost. -/
structure Connection.Parted (conn : Connection) (side : Side) : Prop where
  silent : (conn.incoming side.other).writeClosed = true
  unread : (conn.incoming side).readClosed = true
  empty : (conn.incoming side).buffer = []

theorem Connection.parted_shut (conn : Connection) (side : Side) :
    (conn.shut side .both).Parted side := by
  cases side <;> constructor <;> rfl

/-- The other side of a connection is never kept waiting. -/
theorem Connection.Parted.answer {conn : Connection} {side : Side} (h : conn.Parted side)
    {α : Type} (q : Transfer α) : ∃ r conn', conn.answer side.other q = some (r, conn') := by
  cases q with
  | send data =>
    have hout : conn.outgoing side.other = conn.incoming side := by cases side <;> rfl
    refine ⟨.error (.plain .brokenPipe), conn, ?_⟩
    rw [Connection.answer, hout, Pipe.write_of_closed (.inr h.unread)]
  | recv room =>
    obtain ⟨p, hp⟩ := Pipe.read_of_closed h.silent room
    exact ⟨_, _, by rw [Connection.answer, hp]⟩
  | shutdown how => exact ⟨_, _, rfl⟩

namespace Network

variable {n n' : Network} {e : Event} {tr : List Moment} {s c : Nat} {side : Side}
  {own : Descriptor}

def Moment.talkAt (c : Nat) (side : Side) : Moment → Option Talk
  | (n, .answered (.send s data) r) =>
    if (n.slot s).end? = some (c, side) then some ⟨_, .send data, r⟩ else none
  | (n, .answered (.recv s room) r) =>
    if (n.slot s).end? = some (c, side) then some ⟨_, .recv room, r⟩ else none
  | (n, .answered (.shutdown s how) r) =>
    if (n.slot s).end? = some (c, side) then some ⟨_, .shutdown how, r⟩ else none
  | _ => none

/-- What was asked at an end, in order. -/
def talk (tr : List Moment) (c : Nat) (side : Side) : List Talk :=
  tr.filterMap (Moment.talkAt c side)

theorem of_talkAt {α : Type} {q : Transfer α} {r : Except IoError α}
    (h : Moment.talkAt c side (n, e) = some ⟨α, q, r⟩) :
    ∃ s, (n.slot s).end? = some (c, side) ∧ e = .answered (q.request s) r := by
  cases e with
  | dropped s => simp [Moment.talkAt] at h
  | answered q' r' =>
    cases q' with
    | send s data =>
      obtain ⟨hs, he⟩ := Option.ite_none_right_eq_some.mp h
      cases he
      exact ⟨s, hs, rfl⟩
    | recv s room =>
      obtain ⟨hs, he⟩ := Option.ite_none_right_eq_some.mp h
      cases he
      exact ⟨s, hs, rfl⟩
    | shutdown s how =>
      obtain ⟨hs, he⟩ := Option.ite_none_right_eq_some.mp h
      cases he
      exact ⟨s, hs, rfl⟩
    | socket | bind | listen | accept | connect | localAddr => simp [Moment.talkAt] at h

theorem quiet_of_talkAt (h : Moment.talkAt c side (n, e) = none)
    (hd : ∀ s, e = .dropped s → n.yields s c side = false) : Quiet c side (n, e) := by
  have hasked {t : Nat} (ht : (n.slot t).end? ≠ some (c, side)) (he : e.subject? = some t) :
      Quiet c side (n, e) := by
    refine quiet_of ?_ hd
    intro t' ht'
    cases he.symm.trans ht'
    exact ht
  cases e with
  | dropped s => exact ⟨rfl, hd s rfl, rfl, hd s rfl⟩
  | answered q r =>
    cases q with
    | send s data => exact hasked (t := s) (by simpa [Moment.talkAt] using h) rfl
    | recv s room => exact hasked (t := s) (by simpa [Moment.talkAt] using h) rfl
    | shutdown s how => exact hasked (t := s) (by simpa [Moment.talkAt] using h) rfl
    | socket | bind | listen | accept | connect | localAddr => exact ⟨rfl, rfl, rfl, rfl⟩

theorem connection_of_pipes (h : ∀ a, n'.pipe c a = n.pipe c a) :
    n'.connection c = n.connection c := by
  have hcallee := h .callee
  have hcaller := h .caller
  simp only [pipe, Connection.incoming] at hcallee hcaller
  cases hc : n'.connection c
  cases hc' : n.connection c
  simp_all

theorem connection_of_quiet (hw : Wired n) (h : Change n e n')
    (hp : (n.connection c).Parted side) (hq : Quiet c side.other (n, e)) :
    n'.connection c = n.connection c := by
  have hin := pipe_of_closed hw h hq hp.silent
  have hout : n'.pipe c side = n.pipe c side := by
    have hm := move_of_change hw h c side
    rw [hq.writing] at hm
    exact hm.of_unread hp.unread hp.empty
  refine connection_of_pipes ?_
  cases side with
  | caller => rintro (_ | _); exacts [hout, hin]
  | callee => rintro (_ | _); exacts [hin, hout]

/-- A step of a network in which one side has parted from a connection: a question is answered at
the other end, or the connection stays as it is, or the other end is given up as well. -/
theorem parted_of_change (hw : Wired n) (h : Step n e n') (hl : c < n.connections.length)
    (hp : (n.connection c).Parted side) :
    (∃ (α : Type) (q : Transfer α) (r : Except IoError α),
      Moment.talkAt c side.other (n, e) = some ⟨α, q, r⟩ ∧ (c, side.other) ∈ n.ends ∧
      (n.connection c).answer side.other q = some (r, n'.connection c)) ∨
    Moment.talkAt c side.other (n, e) = none ∧
      ((c, side.other) ∈ n'.ends →
        (c, side.other) ∈ n.ends ∧ n'.connection c = n.connection c) := by
  have hc := change_of_step h
  cases ht : Moment.talkAt c side.other (n, e) with
  | some x =>
    obtain ⟨α, q, r⟩ := x
    obtain ⟨t, hend, rfl⟩ := of_talkAt ht
    have hconn := List.getElem?_eq_getElem hl
    have hcall := h.answer
    rw [call_transfer hend hconn, ← connection_of_getElem? hconn] at hcall
    obtain ⟨⟨_, conn⟩, ha, he⟩ := Option.map_eq_some_iff.mp hcall
    cases he
    refine .inl ⟨α, q, _, rfl, mem_ends_of_slot hend, ?_⟩
    rw [ha, connection_set rfl hconn c, if_pos rfl]
  | none =>
    refine .inr ⟨rfl, ?_⟩
    intro hm
    constructor
    · by_contra hgone
      exact not_mem_ends_of_change hc hl hgone hm
    · have hd : ∀ t, e = .dropped t → n.yields t c side.other = false := by
        rintro t rfl
        cases hc
        refine Bool.eq_false_iff.mpr ?_
        intro hy
        exact not_mem_ends_of_yields hw hy hm
      exact connection_of_quiet hw hc hp (quiet_of_talkAt ht hd)

theorem parted_of_run (hw : Wired n) (h : Run n tr n') (hp : (n.connection c).Parted side) :
    (n'.connection c).Parted side := by
  obtain ⟨hsilent, -, -⟩ := closed_of_run hw h c side.other
  obtain ⟨-, hunread, hkept⟩ := closed_of_run hw h c side
  obtain ⟨-, hless⟩ := hkept (.inr hp.unread)
  constructor
  · exact hsilent hp.silent
  · exact hunread hp.unread
  · have hempty : (n.pipe c side).buffer = [] := hp.empty
    rw [hempty] at hless
    exact List.suffix_nil.mp hless

/-- Once one side has parted from a connection, what is asked at the other end is a conversation
with that connection alone, whatever else happens. -/
theorem conversation_of_run (hw : Wired n) (hl : c < n.connections.length)
    (hp : (n.connection c).Parted side) (h : Run n tr n') :
    c < n'.connections.length ∧
    ∃ conn, Conversation side.other (n.connection c) (talk tr c side.other) conn ∧
      ((c, side.other) ∈ n'.ends → n'.connection c = conn) := by
  induction h with
  | nil => exact ⟨hl, _, .nil, fun _ => rfl⟩
  | snoc hr hs ih =>
    obtain ⟨hl, conn, htalk, hheld⟩ := ih
    refine ⟨Nat.lt_of_lt_of_le hl (length_connections_le (change_of_step hs)), ?_⟩
    rw [talk, List.filterMap_append, ← talk]
    rcases parted_of_change (wired_of_run hr hw) hs hl (parted_of_run hw hr hp) with
      ⟨α, q, r, ht, hm, ha⟩ | ⟨ht, hkeep⟩
    · rw [hheld hm] at ha
      refine ⟨_, ?_, fun _ => rfl⟩
      simpa [ht] using htalk.snoc ha
    · refine ⟨conn, by simpa [ht] using htalk, ?_⟩
      intro hm
      obtain ⟨hm, hc⟩ := hkeep hm
      rw [hc, hheld hm]

theorem accept_congr {u : Nat} (hs : n'.slot u = n.slot u) (hq : n'.queues = n.queues)
    (hl : n'.slots.length = n.slots.length) :
    (n'.accept u).map Prod.fst = (n.accept u).map Prod.fst := by
  unfold accept dequeue
  rw [hs, hq]
  cases n.slot u with
  | listening d q =>
    dsimp only
    cases n.queues[q]? with
    | none => rfl
    | some queue =>
      dsimp only
      cases queue.pending with
      | nil => cases queue.closed <;> rfl
      | cons p rest => simp [hl]
  | fresh | bound | connected | closed => rfl

/-- Giving a socket up does to its connection what ending both directions does, and beyond that
closes the socket and gives back the endpoint of a caller. -/
theorem drop_eq_shut (hs : n.slot s = .connected own c side) :
    n.drop s = { n.modifyConnection c (·.shut side .both) with
      slots := n.slots.set s .closed
      registry := if side = .caller then n.registry.erase own.endpoint else n.registry } := by
  rw [drop_eq, hs]
  cases side <;> rfl

/-- Two networks with the same connection, which one side has parted from, cannot be told apart at
the other end of it. -/
theorem alike_of_runs {n₁ n₂ m₁ m₂ : Network} {tr₁ tr₂ : List Moment} (hw₁ : Wired n₁)
    (hw₂ : Wired n₂) (hl₁ : c < n₁.connections.length) (hl₂ : c < n₂.connections.length)
    (hc : n₁.connection c = n₂.connection c) (hp : (n₂.connection c).Parted side)
    (h₁ : Run n₁ tr₁ m₁) (h₂ : Run n₂ tr₂ m₂)
    (hq : (talk tr₁ c side.other).map Talk.asked = (talk tr₂ c side.other).map Talk.asked) :
    talk tr₁ c side.other = talk tr₂ c side.other ∧
    ∀ t₁ t₂ α (q : Transfer α), (m₁.slot t₁).end? = some (c, side.other) →
      (m₂.slot t₂).end? = some (c, side.other) →
      ∃ r m₁' m₂', m₁.call (q.request t₁) = some (r, m₁') ∧
        m₂.call (q.request t₂) = some (r, m₂') := by
  obtain ⟨hl₁, conn₁, htalk₁, hheld₁⟩ := conversation_of_run hw₁ hl₁ (hc ▸ hp) h₁
  obtain ⟨hl₂, conn₂, htalk₂, hheld₂⟩ := conversation_of_run hw₂ hl₂ hp h₂
  rw [hc] at htalk₁
  obtain ⟨htalk, rfl⟩ := htalk₁.unique htalk₂ hq
  refine ⟨htalk, ?_⟩
  intro t₁ t₂ α q ht₁ ht₂
  have hconn₁ := hheld₁ (mem_ends_of_slot ht₁)
  have hconn₂ := hheld₂ (mem_ends_of_slot ht₂)
  have hparted := parted_of_run hw₂ h₂ hp
  rw [hconn₂] at hparted
  obtain ⟨r, conn', ha⟩ := hparted.answer q
  have hc₁ := List.getElem?_eq_getElem hl₁
  have hc₂ := List.getElem?_eq_getElem hl₂
  rw [← connection_of_getElem? hc₁, hconn₁] at hc₁
  rw [← connection_of_getElem? hc₂, hconn₂] at hc₂
  refine ⟨r, m₁.setConnection c conn', m₂.setConnection c conn', ?_, ?_⟩
  · rw [call_transfer ht₁ hc₁, ha, Option.map_some]
  · rw [call_transfer ht₂ hc₂, ha, Option.map_some]

/-- To the other end of a connection it makes no difference whether a socket is given up, or has
ended both directions and is kept. The networks differ in that socket and the endpoint of a caller
alone, so that an end that still waits in a queue is accepted alike. From then on, whatever else
happens in either, the same questions at the other end have the same answers, and none has to
wait. -/
theorem parting_of_run {cid : UInt32} (h : Run (ofCid cid) tr n)
    (hs : n.slot s = .connected own c side) :
    ∃ n', n.shutdown s .both = some (.ok (), n') ∧
      n.drop s = { n' with
        slots := n'.slots.set s .closed
        registry := if side = .caller then n'.registry.erase own.endpoint else n'.registry } ∧
      (∀ u ≠ s, ((n.drop s).accept u).map Prod.fst = (n'.accept u).map Prod.fst) ∧
      ∀ tr₁ m₁ tr₂ m₂, Run (n.drop s) tr₁ m₁ → Run n' tr₂ m₂ →
        (talk tr₁ c side.other).map Talk.asked = (talk tr₂ c side.other).map Talk.asked →
        talk tr₁ c side.other = talk tr₂ c side.other ∧
        ∀ t₁ t₂ α (q : Transfer α), (m₁.slot t₁).end? = some (c, side.other) →
          (m₂.slot t₂).end? = some (c, side.other) →
          ∃ r m₁' m₂', m₁.call (q.request t₁) = some (r, m₁') ∧
            m₂.call (q.request t₂) = some (r, m₂') := by
  have hw := wired_of_run h (wired_ofCid cid)
  have hl : c < n.connections.length := hw.made _ (mem_ends_of_slot (end?_of_slot hs))
  have hdrop := drop_eq_shut hs
  refine ⟨_, shutdown_eq hs .both, hdrop, ?_, ?_⟩
  · intro u hu
    refine accept_congr ?_ ?_ ?_
    · rw [slot_drop, if_neg hu]
      rfl
    · rw [hdrop]
    · rw [hdrop, List.length_set]
      rfl
  · intro tr₁ m₁ tr₂ m₂ h₁ h₂ hq
    have hstep := change_of_step (Step.call (q := .shutdown s .both) (shutdown_eq hs .both))
    have hlen : (n.modifyConnection c (·.shut side .both)).connections.length =
        n.connections.length := List.length_modify _ _ _
    have hsame : (n.drop s).connection c =
        (n.modifyConnection c (·.shut side .both)).connection c := by rw [hdrop]; rfl
    have hparted : ((n.modifyConnection c (·.shut side .both)).connection c).Parted side := by
      rw [connection_modify rfl hl, if_pos rfl]
      exact (n.connection c).parted_shut side
    refine alike_of_runs (hw.drop s) (hw.step hstep) ?_ (hlen ▸ hl) hsame hparted h₁ h₂ hq
    rwa [drop_connections, length_severed]

/-- A caller sends two bytes and parts before it is accepted. Given up or kept, the accepted end
receives the first byte, and then the same as in the other case. -/
theorem parting_of_unaccepted_run :
    ∃ tr n n', Run (ofCid 3) tr n ∧ n.shutdown 1 .both = some (.ok (), n') ∧
      ∃ tr₁ m₁ tr₂ m₂, Run (n.drop 1) tr₁ m₁ ∧ Run n' tr₂ m₂ ∧
        talk tr₁ 0 .callee = [⟨_, .recv 1, .ok [104]⟩] ∧
        talk tr₁ 0 .callee = talk tr₂ 0 .callee ∧
        ∀ α (q : Transfer α), ∃ r m₁' m₂', m₁.call (q.request 2) = some (r, m₁') ∧
          m₂.call (q.request 2) = some (r, m₂') := by
  have h := Run.nil (n := ofCid 3)
    |>.snoc (.call (q := .socket) rfl)
    |>.snoc (.call (q := .bind 0 (Descriptor.bind 3 1234)) rfl)
    |>.snoc (.call (q := .listen 0 1) rfl)
    |>.snoc (.call (q := .socket) rfl)
    |>.snoc (.call (q := .connect 1 (Descriptor.remote 3 1234)) rfl)
    |>.snoc (.call (q := .send 1 [104, 105]) rfl)
  obtain ⟨n', hshut, -, -, halike⟩ := parting_of_run (s := 1) h rfl
  cases hshut
  -- the socket that is kept receives in the second run
  obtain ⟨htalk, hnext⟩ := halike _ _ _ _
    (.snoc (.snoc .nil (.call (q := .accept 0) rfl)) (.call (q := .recv 2 1) rfl))
    (.snoc (.snoc (.snoc .nil (.call (q := .accept 0) rfl)) (.call (q := .recv 1 8) rfl))
      (.call (q := .recv 2 1) rfl)) rfl
  refine ⟨_, _, _, h, rfl, _, _, _, _, ?_, ?_, ?_, htalk, fun α q => hnext 2 2 α q rfl rfl⟩
  · exact .snoc (.snoc .nil (.call rfl)) (.call rfl)
  · exact .snoc (.snoc (.snoc .nil (.call rfl)) (.call rfl)) (.call rfl)
  · rfl

end Network
end Handoff.Loopback
