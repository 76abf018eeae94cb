import Handoff.Proofs.Loopback.Registry
import Mathlib.Data.List.Nodup

/-!
The search for a free port. It goes through the ports that are handed out in a cycle, in which one
port is some places ahead of another (`ahead`), and a registry cannot hold more of them than it has
entries, so it finds one if there is one.
-/
namespace Handoff.Loopback

/-- The number of ports that are handed out. -/
def portCount : Nat := 4294967295 - 40000

/-- The port some places on in the cycle. -/
def portAfter (p : UInt32) : Nat → UInt32
  | 0 => p
  | k + 1 => portAfter (nextPort p) k

variable {p : UInt32}

/-- Places in the cycle count up modulo its length. -/
theorem toNat_portAfter (h : HandedOut p) (k : Nat) :
    (portAfter p k).toNat = 40000 + (p.toNat - 40000 + k) % portCount := by
  induction k generalizing p with
  | zero =>
    rw [handedOut_iff] at h
    rw [portAfter, Nat.add_zero, Nat.mod_eq_of_lt (by unfold portCount; omega)]
    omega
  | succ k ih =>
    have hn := toNat_nextPort h
    rw [portAfter, ih (handedOut_nextPort h)]
    rw [handedOut_iff] at h
    unfold portCount
    split at hn <;> omega

theorem handedOut_portAfter (h : HandedOut p) (k : Nat) : HandedOut (portAfter p k) := by
  have hn := toNat_portAfter h k
  rw [handedOut_iff]
  unfold portCount at hn
  omega

/-- How many places a port is ahead of another in the cycle. -/
def ahead (p q : UInt32) : Nat := (q.toNat + portCount - p.toNat) % portCount

theorem ahead_lt (p q : UInt32) : ahead p q < portCount := Nat.mod_lt _ (by decide)

theorem ahead_self (p : UInt32) : ahead p p = 0 := by
  unfold ahead
  rw [Nat.add_sub_cancel_left, Nat.mod_self]

theorem portAfter_ahead (h : HandedOut p) {q : UInt32} (hq : HandedOut q) :
    portAfter p (ahead p q) = q := by
  rw [← UInt32.toNat_inj, toNat_portAfter h]
  rw [handedOut_iff] at h hq
  unfold ahead portCount
  omega

theorem ahead_portAfter (h : HandedOut p) {k : Nat} (hk : k < portCount) :
    ahead p (portAfter p k) = k := by
  have hn := toNat_portAfter h k
  rw [handedOut_iff] at h
  unfold portCount at hk hn
  unfold ahead portCount
  omega

/-- A port that is ahead comes one place nearer when a port is passed. -/
theorem ahead_nextPort (h : HandedOut p) {q : UInt32} (hq : HandedOut q) (hne : p ≠ q) :
    ahead p q = ahead (nextPort p) q + 1 := by
  have hn := toNat_nextPort h
  have hne : p.toNat ≠ q.toNat := mt UInt32.toNat_inj.mp hne
  rw [handedOut_iff] at h hq
  unfold ahead portCount
  split at hn <;> omega

/-- Every port that is handed out comes up within one cycle. -/
theorem exists_portAfter (h : HandedOut p) {q : UInt32} (hq : HandedOut q) :
    ∃ k < portCount, portAfter p k = q :=
  ⟨ahead p q, ahead_lt p q, portAfter_ahead h hq⟩

/-- No port comes up twice within one cycle. -/
theorem portAfter_inj (h : HandedOut p) {i j : Nat} (hi : i < portCount) (hj : j < portCount)
    (he : portAfter p i = portAfter p j) : i = j := by
  rw [← ahead_portAfter h hi, he, ahead_portAfter h hj]

/-- A search that finds nothing has seen only ports that are in use. -/
theorem has_of_freePort?_eq_none {r : Registry} {cid : UInt32} {m : Nat}
    (h : freePort? r cid m p = none) {k : Nat} (hk : k < m) :
    r.has ⟨cid, portAfter p k⟩ = true := by
  induction m generalizing p k with
  | zero => exact absurd hk (Nat.not_lt_zero _)
  | succ m ih =>
    unfold freePort? at h
    split at h
    · rename_i hp
      cases k with
      | zero => exact hp
      | succ k => exact ih h (Nat.lt_of_succ_lt_succ hk)
    · simp at h

/-- A free port is found if there is one. -/
theorem allocate?_isSome {r : Registry} {cid counter port : UInt32} (hc : HandedOut counter)
    (hp : HandedOut port) (hf : r.has ⟨cid, port⟩ = false) :
    (allocate? r cid counter).isSome := by
  unfold allocate?
  rw [Option.isSome_map]
  by_contra hn
  have hn : freePort? r cid (r.length + 1) counter = none := by simpa using hn
  have hused (k : Nat) (hk : k < r.length + 1) : (⟨cid, portAfter counter k⟩ : Endpoint) ∈ r.keys :=
    (Registry.has_iff _ _).mp (has_of_freePort?_eq_none hn hk)
  by_cases hl : r.length + 1 ≤ portCount
  · -- more ports in use than there are entries
    let seen := (List.range (r.length + 1)).map fun k => (⟨cid, portAfter counter k⟩ : Endpoint)
    have hnodup : seen.Nodup := by
      refine List.Nodup.map_on ?_ List.nodup_range
      intro i hi j hj he
      rw [List.mem_range] at hi hj
      exact portAfter_inj hc (by omega) (by omega) (Endpoint.mk.inj he).2
    have hsub : seen ⊆ r.keys := by
      intro e he
      obtain ⟨k, hk, rfl⟩ := List.mem_map.mp he
      exact hused k (List.mem_range.mp hk)
    have hle := (List.subperm_of_subset hnodup hsub).length_le
    simp only [seen, List.length_map, List.length_range, Registry.keys] at hle
    omega
  · obtain ⟨k, hk, rfl⟩ := exists_portAfter hc hp
    have hm := hused k (by omega)
    rw [(Registry.has_iff _ _).mpr hm] at hf
    simp at hf

/-- A search that finds a port has passed over the ones that are in use. -/
theorem of_freePort?_eq_some {r : Registry} {cid q : UInt32} {m : Nat}
    (h : freePort? r cid m p = some q) :
    ∃ k, q = portAfter p k ∧ ∀ j < k, r.has ⟨cid, portAfter p j⟩ = true := by
  induction m generalizing p with
  | zero => simp [freePort?] at h
  | succ m ih =>
    unfold freePort? at h
    split at h
    · rename_i hp
      obtain ⟨k, hk, hused⟩ := ih h
      refine ⟨k + 1, hk, ?_⟩
      intro j hj
      cases j with
      | zero => exact hp
      | succ j => exact hused j (Nat.lt_of_succ_lt_succ hj)
    · cases h
      exact ⟨0, rfl, fun j hj => absurd hj (Nat.not_lt_zero j)⟩

/-- The first port that is free in a context, in the cycle from a port on. -/
structure NextFree (r : Registry) (cid start port : UInt32) : Prop where
  free : r.has ⟨cid, port⟩ = false
  first : ∃ k, port = portAfter start k ∧ ∀ j < k, r.has ⟨cid, portAfter start j⟩ = true

namespace NextFree

variable {r : Registry} {cid start port port' : UInt32}

theorem unique (h : NextFree r cid start port) (h' : NextFree r cid start port') :
    port = port' := by
  obtain ⟨k, rfl, hk⟩ := h.first
  obtain ⟨j, rfl, hj⟩ := h'.first
  rcases Nat.lt_trichotomy k j with hlt | rfl | hlt
  · exact absurd (hj k hlt) (by simp [h.free])
  · rfl
  · exact absurd (hk j hlt) (by simp [h'.free])

theorem handedOut (h : NextFree r cid start port) (hs : HandedOut start) : HandedOut port := by
  obtain ⟨k, rfl, -⟩ := h.first
  exact handedOut_portAfter hs k

end NextFree

/-- The port that is handed out is the next free one, and the counter goes past it. -/
theorem nextFree_of_allocate? {r : Registry} {cid counter port next : UInt32}
    (h : allocate? r cid counter = some (port, next)) :
    NextFree r cid counter port ∧ next = nextPort port := by
  obtain ⟨q, hq, he⟩ := Option.map_eq_some_iff.mp h
  cases he
  exact ⟨⟨not_has_of_freePort? hq, of_freePort?_eq_some hq⟩, rfl⟩

theorem allocate?_of_nextFree {r : Registry} {cid counter port : UInt32} (hc : HandedOut counter)
    (h : NextFree r cid counter port) :
    allocate? r cid counter = some (port, nextPort port) := by
  obtain ⟨⟨port', next⟩, ha⟩ :=
    Option.isSome_iff_exists.mp (allocate?_isSome hc (h.handedOut hc) h.free)
  obtain ⟨h', rfl⟩ := nextFree_of_allocate? ha
  rw [ha, h.unique h']

/-- A port is handed out whenever one is free, wherever the counter stands. -/
theorem allocate?_isSome_iff {r : Registry} {cid counter : UInt32} (hc : HandedOut counter) :
    (allocate? r cid counter).isSome ↔ ∃ p, HandedOut p ∧ r.has ⟨cid, p⟩ = false := by
  constructor
  · intro h
    obtain ⟨⟨port, next⟩, ha⟩ := Option.isSome_iff_exists.mp h
    have hp := (nextFree_of_allocate? ha).1
    exact ⟨port, hp.handedOut hc, hp.free⟩
  · rintro ⟨p, hp, hf⟩
    exact allocate?_isSome hc hp hf

/-- While a port is free there is a next one. -/
theorem exists_nextFree {r : Registry} {cid counter port : UInt32} (hc : HandedOut counter)
    (hp : HandedOut port) (hf : r.has ⟨cid, port⟩ = false) : ∃ p, NextFree r cid counter p := by
  obtain ⟨⟨p, next⟩, ha⟩ := Option.isSome_iff_exists.mp (allocate?_isSome hc hp hf)
  exact ⟨p, (nextFree_of_allocate? ha).1⟩

end Handoff.Loopback
