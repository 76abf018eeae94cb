import Handoff.Loopback.Pipe

/-!
Pipes on their own: what a step can do to one, when nothing more comes out of it, and how its
buffer stands to what was sent into it and received from it.
-/
namespace Handoff.Loopback.Pipe

/-- A pipe with some of its sides closed. -/
def closing (p : Pipe) (reading writing : Bool) : Pipe :=
  { buffer := if reading then [] else p.buffer
    writeClosed := p.writeClosed || writing
    readClosed := p.readClosed || reading }

@[simp] theorem closing_false (p : Pipe) : p.closing false false = p := by
  simp [closing]

theorem closing_closing (p : Pipe) (r r' w w' : Bool) :
    (p.closing r w).closing r' w' = p.closing (r || r') (w || w') := by
  cases r <;> cases r' <;> simp [closing, Bool.or_assoc]

/-- All that one step can do to a pipe: write to it, read from it, or close sides of it. -/
inductive Move (p : Pipe) : List UInt8 → List UInt8 → Bool → Bool → Pipe → Prop where
  | write {data : List UInt8} {p' : Pipe} (h : p.write data = (.ok data.length, p')) :
      Move p data [] false false p'
  | read {room : Nat} {bytes : List UInt8} {p' : Pipe} (h : p.read room = some (bytes, p')) :
      Move p [] bytes false false p'
  | close (reading writing : Bool) : Move p [] [] reading writing (p.closing reading writing)

theorem Move.idle (p : Pipe) : Move p [] [] false false p := by
  have h := Move.close (p := p) false false
  rwa [closing_false] at h

/-- Writing takes all of the data, and only while both sides are open. -/
theorem of_write_eq_ok {p p' : Pipe} {data : List UInt8} {k : Nat}
    (h : p.write data = (.ok k, p')) :
    k = data.length ∧ p.writeClosed = false ∧ p.readClosed = false ∧
      p' = { p with buffer := p.buffer ++ data } := by
  unfold write at h
  split at h
  · simp at h
  · rename_i hc
    simp only [Bool.or_eq_true, not_or, Bool.not_eq_true] at hc
    simp only [Prod.mk.injEq, Except.ok.injEq] at h
    exact ⟨h.1.symm, hc.1, hc.2, h.2.symm⟩

/-- Reading takes from the front of the buffer and leaves the sides as they are. -/
theorem of_read_eq_some {p p' : Pipe} {room : Nat} {bytes : List UInt8}
    (h : p.read room = some (bytes, p')) :
    p.buffer = bytes ++ p'.buffer ∧ p'.writeClosed = p.writeClosed ∧
      p'.readClosed = p.readClosed := by
  refine ⟨buffer_eq_of_read h, ?_⟩
  unfold read at h
  split at h
  · simp only [Option.some.injEq, Prod.mk.injEq] at h
    rw [← h.2]; exact ⟨rfl, rfl⟩
  split at h
  · simp only [Option.some.injEq, Prod.mk.injEq] at h
    rw [← h.2]; exact ⟨rfl, rfl⟩
  split at h
  · simp only [Option.some.injEq, Prod.mk.injEq] at h
    rw [← h.2]; exact ⟨rfl, rfl⟩
  · simp at h

/-- No bytes are read into an empty pipe that one side has closed. -/
theorem of_read_eq_nil {p p' : Pipe} {room : Nat} (hr : 0 < room)
    (h : p.read room = some ([], p')) :
    p.buffer = [] ∧ (p.writeClosed = true ∨ p.readClosed = true) := by
  unfold read at h
  rw [if_neg (Nat.ne_of_gt hr)] at h
  by_cases hb : p.buffer = []
  · refine ⟨hb, ?_⟩
    rw [if_neg (not_not_intro hb)] at h
    split at h
    · rename_i hc
      exact (Bool.or_eq_true _ _).mp hc
    · simp at h
  · rw [if_pos hb] at h
    simp only [Option.some.injEq, Prod.mk.injEq, List.take_eq_nil_iff] at h
    rcases h.1 with h0 | h0
    · exact absurd h0 (Nat.ne_of_gt hr)
    · exact absurd h0 hb

/-- Bytes that are read are the first in the buffer, as many as there is room for. -/
theorem of_read {p p' : Pipe} {room : Nat} {bytes : List UInt8} (hr : 0 < room)
    (h : p.read room = some (bytes, p')) :
    bytes = p.buffer.take room ∧ p' = { p with buffer := p.buffer.drop room } := by
  unfold read at h
  rw [if_neg (Nat.ne_of_gt hr)] at h
  by_cases hb : p.buffer = []
  · rw [if_neg (not_not_intro hb)] at h
    split at h
    · simp only [Option.some.injEq, Prod.mk.injEq] at h
      obtain ⟨rfl, rfl⟩ := h
      cases p
      simp_all
    · simp at h
  · rw [if_pos hb] at h
    simp only [Option.some.injEq, Prod.mk.injEq] at h
    exact ⟨h.1.symm, h.2.symm⟩

/-- A reader is made to wait by an empty pipe with both sides open. -/
theorem read_eq_none_iff {p : Pipe} {room : Nat} (hr : 0 < room) :
    p.read room = none ↔ p.buffer = [] ∧ p.writeClosed = false ∧ p.readClosed = false := by
  unfold read
  rw [if_neg (Nat.ne_of_gt hr)]
  by_cases hb : p.buffer = []
  · simp [hb]
  · simp [hb]

/-- A pipe that is closed for writing gives what is in it. -/
theorem read_of_closed {p : Pipe} (h : p.writeClosed = true) (room : Nat) :
    ∃ p', p.read room = some (p.buffer.take room, p') := by
  unfold read
  by_cases hr : room = 0
  · exact ⟨p, by simp [hr]⟩
  · by_cases hb : p.buffer = []
    · exact ⟨p, by simp [hr, hb, h]⟩
    · exact ⟨_, by rw [if_neg hr, if_pos hb]⟩

theorem read_ne_none {p : Pipe} (h : p.writeClosed = true) (room : Nat) : p.read room ≠ none := by
  unfold read
  split
  · simp
  split
  · simp
  · simp [h]

/-- What a step does that neither reads nor closes the reading side. Data is taken only while both
sides are open. -/
theorem Move.unread {p p' : Pipe} {sent : List UInt8} {w : Bool} (h : p.Move sent [] false w p') :
    p' = { p with buffer := p.buffer ++ sent, writeClosed := p.writeClosed || w } ∧
      (sent ≠ [] → p.writeClosed = false ∧ p.readClosed = false) := by
  cases h with
  | write hw =>
    obtain ⟨-, h1, h2, rfl⟩ := of_write_eq_ok hw
    exact ⟨by simp, fun _ => ⟨h1, h2⟩⟩
  | read hr =>
    obtain ⟨h1, h2, h3⟩ := of_read_eq_some hr
    rw [List.nil_append] at h1
    refine ⟨?_, fun hn => absurd rfl hn⟩
    cases p
    cases p'
    simp_all
  | close => exact ⟨by simp [closing], fun hn => absurd rfl hn⟩

/-- A pipe that nothing will come out of any more. -/
def Spent (p : Pipe) : Prop := p.buffer = [] ∧ (p.writeClosed = true ∨ p.readClosed = true)

theorem Spent.read {p : Pipe} (h : p.Spent) (room : Nat) : p.read room = some ([], p) := by
  have hc : (p.writeClosed || p.readClosed) = true := (Bool.or_eq_true _ _).mpr h.2
  simp [Pipe.read, h.1, hc]

theorem write_of_closed {p : Pipe} (h : p.writeClosed = true ∨ p.readClosed = true)
    (data : List UInt8) : p.write data = (.error (.plain .brokenPipe), p) := by
  have hc : (p.writeClosed || p.readClosed) = true := (Bool.or_eq_true _ _).mpr h
  simp [Pipe.write, hc]

theorem Spent.write {p : Pipe} (h : p.Spent) (data : List UInt8) :
    p.write data = (.error (.plain .brokenPipe), p) := write_of_closed h.2 data

theorem Spent.move {p p' : Pipe} {sent received : List UInt8} {r w : Bool} (h : p.Spent)
    (hm : p.Move sent received r w p') : p'.Spent := by
  cases hm with
  | write hw => rw [h.write] at hw; simp at hw
  | read hr =>
    rw [h.read] at hr
    simp only [Option.some.injEq, Prod.mk.injEq] at hr
    exact hr.2 ▸ h
  | close =>
    refine ⟨by simp [closing, h.1], ?_⟩
    rcases h.2 with hc | hc
    · exact .inl (by simp [closing, hc])
    · exact .inr (by simp [closing, hc])

/-- Sides are closed by closing alone. -/
theorem Move.sides {p p' : Pipe} {sent received : List UInt8} {r w : Bool}
    (h : p.Move sent received r w p') :
    p'.readClosed = (p.readClosed || r) ∧ p'.writeClosed = (p.writeClosed || w) := by
  cases h with
  | write hw =>
    obtain ⟨-, -, -, rfl⟩ := of_write_eq_ok hw
    simp
  | read hr =>
    obtain ⟨-, h1, h2⟩ := of_read_eq_some hr
    simp [h1, h2]
  | close => exact ⟨rfl, rfl⟩

theorem Move.writeClosed {p p' : Pipe} {sent received : List UInt8} {r w : Bool}
    (h : p.Move sent received r w p') (hc : p.writeClosed = true) : p'.writeClosed = true := by
  rw [h.sides.2, hc, Bool.true_or]

theorem Move.readClosed {p p' : Pipe} {sent received : List UInt8} {r w : Bool}
    (h : p.Move sent received r w p') (hc : p.readClosed = true) : p'.readClosed = true := by
  rw [h.sides.1, hc, Bool.true_or]

/-- Nothing is sent into a pipe that is closed for writing. -/
theorem Move.sent_eq_nil {p p' : Pipe} {sent received : List UInt8} {r w : Bool}
    (h : p.Move sent received r w p') (hc : p.writeClosed = true) : sent = [] := by
  cases h with
  | write hw =>
    have hopen := (of_write_eq_ok hw).2.1
    simp [hc] at hopen
  | read | close => rfl

/-- A pipe that one side has closed takes no more bytes: it only empties from the front. -/
theorem Move.of_closed {p p' : Pipe} {sent received : List UInt8} {r w : Bool}
    (h : p.Move sent received r w p') (hc : p.writeClosed = true ∨ p.readClosed = true) :
    sent = [] ∧ p'.buffer <:+ p.buffer := by
  cases h with
  | write hw =>
    rw [write_of_closed hc] at hw
    simp at hw
  | read hr => exact ⟨rfl, _, (of_read_eq_some hr).1.symm⟩
  | close =>
    refine ⟨rfl, ?_⟩
    cases r with
    | true => exact List.nil_suffix
    | false => exact List.suffix_refl _

/-- A pipe that is not read from any more stays as it is, but for its writing side. -/
theorem Move.of_unread {p p' : Pipe} {sent received : List UInt8} {r : Bool}
    (h : p.Move sent received r false p') (hr : p.readClosed = true) (hb : p.buffer = []) :
    p' = p := by
  obtain ⟨hread, hwrite⟩ := h.sides
  obtain ⟨-, hless⟩ := h.of_closed (.inr hr)
  rw [hb] at hless
  have hempty := List.suffix_nil.mp hless
  cases p
  cases p'
  simp_all

/-- An empty pipe is filled by sending alone. -/
theorem Move.buffer_eq_nil {p p' : Pipe} {sent received : List UInt8} {r w : Bool}
    (h : p.Move sent received r w p') (hb : p.buffer = []) (hs : sent = []) : p'.buffer = [] := by
  cases h with
  | write hw =>
    obtain ⟨-, -, -, rfl⟩ := of_write_eq_ok hw
    rw [hb, hs, List.nil_append]
  | read hr =>
    have hbytes := (of_read_eq_some hr).1
    rw [hb] at hbytes
    exact (List.append_eq_nil_iff.mp hbytes.symm).2
  | close => simp [closing, hb]

/-- How a pipe stands to what was sent into it and received from it, and to which of its sides were
closed. -/
structure Flow (sent received : List UInt8) (reading writing : Bool) (p : Pipe) : Prop where
  received_prefix : received <+: sent
  kept : reading = false → received ++ p.buffer = sent
  cleared : reading = true → p.buffer = []
  readClosed : p.readClosed = reading
  writeClosed : p.writeClosed = writing

theorem flow_empty : Flow [] [] false false empty where
  received_prefix := List.nil_prefix
  kept := fun _ => rfl
  cleared := fun _ => rfl
  readClosed := rfl
  writeClosed := rfl

theorem Flow.write {sent received data : List UInt8} {k : Nat} {r w : Bool} {p p' : Pipe}
    (h : Flow sent received r w p) (hw : p.write data = (.ok k, p')) :
    Flow (sent ++ data) received r w p' := by
  obtain ⟨-, h1, h2, rfl⟩ := of_write_eq_ok hw
  have hr : r = false := h.readClosed.symm.trans h2
  constructor
  · exact h.received_prefix.trans (List.prefix_append _ _)
  · intro _
    rw [← List.append_assoc, h.kept hr]
  · intro hr'
    simp [hr] at hr'
  · exact h.readClosed
  · exact h.writeClosed

theorem Flow.read {sent received bytes : List UInt8} {room : Nat} {r w : Bool} {p p' : Pipe}
    (h : Flow sent received r w p) (hr : p.read room = some (bytes, p')) :
    Flow sent (received ++ bytes) r w p' := by
  obtain ⟨h1, h2, h3⟩ := of_read_eq_some hr
  have hk : r = false → received ++ bytes ++ p'.buffer = sent := by
    intro h0
    rw [List.append_assoc, ← h1]
    exact h.kept h0
  constructor
  · cases r with
    | false => exact ⟨p'.buffer, hk rfl⟩
    | true =>
      -- nothing is left to be read
      have hb : bytes = [] := (List.append_eq_nil_iff.mp (h1.symm.trans (h.cleared rfl))).1
      rw [hb, List.append_nil]
      exact h.received_prefix
  · exact hk
  · intro h0
    exact (List.append_eq_nil_iff.mp (h1.symm.trans (h.cleared h0))).2
  · rw [h3, h.readClosed]
  · rw [h2, h.writeClosed]

theorem Flow.close {sent received : List UInt8} {r w : Bool} {p : Pipe}
    (h : Flow sent received r w p) (r' w' : Bool) :
    Flow sent received (r || r') (w || w') (p.closing r' w') := by
  constructor
  · exact h.received_prefix
  · intro h0
    simp only [Bool.or_eq_false_iff] at h0
    simpa [closing, h0.2] using h.kept h0.1
  · intro h0
    rcases (Bool.or_eq_true _ _).mp h0 with h0 | h0
    · simp [closing, h.cleared h0]
    · simp [closing, h0]
  · simp [closing, h.readClosed]
  · simp [closing, h.writeClosed]

/-- Every step keeps the books. -/
theorem Flow.move {sent received data bytes : List UInt8} {r w r' w' : Bool} {p p' : Pipe}
    (h : Flow sent received r w p) (hm : p.Move data bytes r' w' p') :
    Flow (sent ++ data) (received ++ bytes) (r || r') (w || w') p' := by
  cases hm with
  | write hw =>
    rw [List.append_nil, Bool.or_false, Bool.or_false]
    exact h.write hw
  | read hr =>
    rw [List.append_nil, Bool.or_false, Bool.or_false]
    exact h.read hr
  | close =>
    rw [List.append_nil, List.append_nil]
    exact h.close _ _

end Handoff.Loopback.Pipe
