import Mathlib.Algebra.GroupWithZero.Nat
import Handoff.Proofs.Loopback.Holders

/-!
Bytes that are sent in pieces and received by the roomful: what the pieces of a run are, and how
many receives they take, together or one by one.
-/
namespace Handoff

open Loopback.Network

/-! ### Bytes and receives -/

/-- The receives that a number of bytes takes, all of them full but for the last. -/
def roomfuls (room length : Nat) : Nat := (length + room - 1) / room

section Roomfuls

variable {room : Nat} {cs : List (List UInt8)} {total reads : Nat} {prompt prompt' : Prop}

theorem roomfuls_le_iff (hr : 0 < room) {length reads : Nat} :
    roomfuls room length ≤ reads ↔ length ≤ room * reads := by
  rw [roomfuls, Nat.div_le_iff_le_mul_add_pred hr]
  omega

theorem le_mul_roomfuls (hr : 0 < room) (length : Nat) : length ≤ room * roomfuls room length :=
  (roomfuls_le_iff hr).mp (Nat.le_refl _)

@[simp] theorem roomfuls_zero (hr : 0 < room) : roomfuls room 0 = 0 :=
  Nat.le_zero.mp ((roomfuls_le_iff hr).mpr (Nat.zero_le _))

theorem roomfuls_le (hr : 0 < room) (length : Nat) : roomfuls room length ≤ length :=
  (roomfuls_le_iff hr).mpr (Nat.le_mul_of_pos_left length hr)

/-- Bytes that come together take no more receives than those that come apart. -/
theorem roomfuls_add_le (hr : 0 < room) (a b : Nat) :
    roomfuls room (a + b) ≤ roomfuls room a + roomfuls room b := by
  rw [roomfuls_le_iff hr, Nat.mul_add]
  exact Nat.add_le_add (le_mul_roomfuls hr a) (le_mul_roomfuls hr b)

/-- One receive takes a roomful, or what there is. -/
theorem roomfuls_sub_min (hr : 0 < room) {length : Nat} (hl : 0 < length) :
    roomfuls room (length - min room length) + 1 = roomfuls room length := by
  apply Nat.le_antisymm
  · have hall := le_mul_roomfuls hr length
    obtain ⟨m, hm⟩ : ∃ m, roomfuls room length = m + 1 := by
      refine Nat.exists_eq_succ_of_ne_zero ?_
      intro h0
      rw [h0, Nat.mul_zero] at hall
      omega
    rw [hm, Nat.mul_succ] at hall
    rw [hm]
    apply Nat.succ_le_succ
    rw [roomfuls_le_iff hr]
    omega
  · have hrest := le_mul_roomfuls hr (length - min room length)
    rw [roomfuls_le_iff hr, Nat.mul_succ]
    omega

theorem roomfuls_flatten_le (hr : 0 < room) (cs : List (List UInt8)) :
    roomfuls room cs.flatten.length ≤ (cs.map fun c => roomfuls room c.length).sum := by
  induction cs with
  | nil => simp [hr]
  | cons c cs ih =>
    rw [List.flatten_cons, List.length_append, List.map_cons, List.sum_cons]
    exact Nat.le_trans (roomfuls_add_le hr _ _) (Nat.add_le_add_left ih _)

theorem sum_map_of_empty {f : List UInt8 → Nat} (hf : f [] = 0) (h : ∀ c ∈ cs, c = []) :
    (cs.map f).sum = 0 := by
  induction cs with
  | nil => rfl
  | cons c cs ih =>
    rw [List.map_cons, List.sum_cons, h c List.mem_cons_self, hf,
      ih fun c hc => h c (List.mem_cons_of_mem _ hc)]

/-- What a server has counted of the pieces that were sent to it, with the receives that the rest
will take. The count is exact if none came late. -/
structure Counted (room : Nat) (cs : List (List UInt8)) (prompt : Prop) (total reads : Nat) :
    Prop where
  most : reads + roomfuls room (cs.flatten.length - total) ≤
    (cs.map fun c => roomfuls room c.length).sum
  least : total ≤ room * reads
  exact : prompt →
    reads + roomfuls room (cs.flatten.length - total) = roomfuls room cs.flatten.length

theorem counted_zero (hr : 0 < room) (cs : List (List UInt8)) (prompt : Prop) :
    Counted room cs prompt 0 0 where
  most := by
    rw [Nat.zero_add, Nat.sub_zero]
    exact roomfuls_flatten_le hr cs
  least := Nat.zero_le _
  exact := fun _ => by rw [Nat.zero_add, Nat.sub_zero]

namespace Counted

theorem mono (h : Counted room cs prompt total reads) (hp : prompt' → prompt) :
    Counted room cs prompt' total reads := ⟨h.most, h.least, fun hx => h.exact (hp hx)⟩

/-- A receive takes a roomful of what is left, or all of it. -/
theorem take (h : Counted room cs prompt total reads) (hr : 0 < room)
    (hl : 0 < cs.flatten.length - total) :
    Counted room cs prompt (total + min room (cs.flatten.length - total)) (reads + 1) := by
  have hstep := roomfuls_sub_min hr hl
  rw [Nat.sub_sub] at hstep
  have hmost := h.most
  have hleast := h.least
  constructor
  · omega
  · rw [Nat.mul_succ]
    omega
  · intro hp
    have hexact := h.exact hp
    omega

/-- A piece that comes late may take receives of its own. -/
theorem more (h : Counted room cs prompt total reads) (hr : 0 < room)
    (ht : total ≤ cs.flatten.length) (c : List UInt8)
    (hp : prompt' → total = 0 ∧ reads = 0) :
    Counted room (cs ++ [c]) prompt' total reads where
  most := by
    have hmost := h.most
    have hadd := roomfuls_add_le hr (cs.flatten.length - total) c.length
    have hlen : (cs ++ [c]).flatten.length - total = cs.flatten.length - total + c.length := by
      rw [List.flatten_append, List.length_append, List.flatten_singleton]
      omega
    rw [hlen, List.map_append, List.sum_append, List.map_singleton, List.sum_singleton]
    omega
  least := h.least
  exact := by
    intro hx
    obtain ⟨rfl, rfl⟩ := hp hx
    rw [Nat.zero_add, Nat.sub_zero]

end Counted

end Roomfuls

namespace Loopback.Network

variable {n n' : Network} {e : Event} {c : Nat} {side : Side} {data : List UInt8}

/-- The bytes of a send towards a side. -/
def Moment.pieceTo (c : Nat) (side : Side) : Moment → Option (List UInt8)
  | (n, .answered (.send s data) (.ok _)) =>
    if (n.slot s).end? = some (c, side.other) then some data else none
  | _ => none

/-- The connection that a caller has made to an endpoint. -/
def Moment.joins? (target : Endpoint) (m : Moment) : Option Nat :=
  match m.2.connects? with
  | some (_, d) => if d.endpoint = target then some m.1.connections.length else none
  | none => none

/-- The pieces in which bytes were sent towards a side. -/
def pieces (c : Nat) (side : Side) (tr : List Moment) : List (List UInt8) :=
  tr.filterMap (Moment.pieceTo c side)

theorem of_pieceTo (h : Moment.pieceTo c side (n, e) = some data) :
    ∃ s k, e = .answered (.send s data) (.ok k) ∧ (n.slot s).end? = some (c, side.other) := by
  cases e with
  | dropped s => simp [Moment.pieceTo] at h
  | answered q r =>
    cases q with
    | send s data' =>
      cases r with
      | error e => simp [Moment.pieceTo] at h
      | ok k =>
        obtain ⟨hs, he⟩ := Option.ite_none_right_eq_some.mp h
        cases he
        exact ⟨s, k, rfl, hs⟩
    | socket | bind | listen | accept | connect | recv | shutdown | localAddr =>
      simp [Moment.pieceTo] at h

theorem sentTo_eq_pieceTo (m : Moment) :
    Moment.sentTo c side m = (Moment.pieceTo c side m).getD [] := by
  obtain ⟨n, e⟩ := m
  cases e with
  | dropped s => rfl
  | answered q r =>
    cases q with
    | send s data =>
      cases r with
      | error e => rfl
      | ok k =>
        simp only [Moment.sentTo, Moment.pieceTo]
        split <;> rfl
    | socket | bind | listen | accept | connect | recv | shutdown | localAddr => rfl

/-- No piece, not even an empty one, is sent into a pipe that is closed for writing. -/
theorem pieceTo_of_closed (hw : Wired n) (hs : Step n e n')
    (hc : (n.pipe c side).writeClosed = true) : Moment.pieceTo c side (n, e) = none := by
  cases h : Moment.pieceTo c side (n, e) with
  | none => rfl
  | some data =>
    obtain ⟨s, k, rfl, hend⟩ := of_pieceTo h
    obtain ⟨own, hslot⟩ := slot_of_end? hend
    have hl := hw.made _ (mem_ends_of_slot hend)
    have hx := send_of_closed hslot hl (by rw [other_other]; exact .inl hc) data
    exact absurd (hx.symm.trans hs.answer) (by simp)

/-- Nothing is sent on a connection before it is made. -/
theorem pieceTo_of_unmade (hw : Wired n) (hc : n.connections.length ≤ c) :
    Moment.pieceTo c side (n, e) = none := by
  cases h : Moment.pieceTo c side (n, e) with
  | none => rfl
  | some data =>
    obtain ⟨s, k, -, hend⟩ := of_pieceTo h
    exact absurd (hw.made _ (mem_ends_of_slot hend)) (Nat.not_lt.mpr hc)

theorem quiet_of_unmade (hw : Wired n) (hc : n.connections.length ≤ c) :
    Quiet c .caller (n, e) := by
  have hnone {s : Nat} : (n.slot s).end? ≠ some (c, .caller) := by
    intro hend
    exact absurd (hw.made _ (mem_ends_of_slot hend)) (Nat.not_lt.mpr hc)
  refine quiet_of (fun s _ => hnone) ?_
  intro s _
  refine Bool.eq_false_iff.mpr ?_
  intro hy
  rcases yields_iff.mp hy with hend | ⟨hside, -⟩
  · exact hnone hend
  · simp at hside

end Loopback.Network

end Handoff
