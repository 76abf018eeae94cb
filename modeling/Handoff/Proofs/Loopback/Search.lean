import Handoff.Proofs.Loopback.Allotments

/-!
The search for a free port, round by round. A round looks at the port that the counter is at and
moves the counter past it, and the search goes on until nobody has the port: there is no bound on
its rounds. As long as a port is free, every round but the last brings the counter one place nearer
to it, so the search ends, and it ends at the free port that is nearest. What is handed out
(`allocate?`) is what the search comes to. The main statement is `nearest_of_search`.
-/
namespace Handoff.Loopback

/-- Behind the last port the cycle starts over. -/
theorem nextPort_eq (p : UInt32) : nextPort p = if p = lastPort then firstPort else p + 1 := by
  have hl : p + 1 = anyPort ↔ p = lastPort := UInt32.eq_sub_iff_add_eq.symm
  unfold nextPort
  by_cases h : p = lastPort
  · rw [if_pos h, if_pos (hl.mpr h)]
  · rw [if_neg h, if_neg (mt hl.mp h)]

/-- The port that is nearest ahead of a port, among those that are free in a context. -/
structure Nearest (r : Registry) (cid start port : UInt32) : Prop where
  handedOut : HandedOut port
  free : r.has ⟨cid, port⟩ = false
  passed : ∀ q, HandedOut q → ahead start q < ahead start port → r.has ⟨cid, q⟩ = true

namespace Nearest

variable {r : Registry} {cid start port : UInt32}

theorem refl (hs : HandedOut start) (hf : r.has ⟨cid, start⟩ = false) :
    Nearest r cid start start where
  handedOut := hs
  free := hf
  passed := by
    intro q _ hq
    rw [ahead_self] at hq
    exact absurd hq (Nat.not_lt_zero _)

theorem nextFree (h : Nearest r cid start port) (hs : HandedOut start) :
    NextFree r cid start port where
  free := h.free
  first := by
    refine ⟨ahead start port, (portAfter_ahead hs h.handedOut).symm, ?_⟩
    intro j hj
    have hlt := ahead_lt start port
    refine h.passed _ (handedOut_portAfter hs j) ?_
    rwa [ahead_portAfter hs (Nat.lt_trans hj hlt)]

theorem start_ne (h : Nearest r cid (nextPort start) port) (hu : r.has ⟨cid, start⟩ = true) :
    start ≠ port := by
  intro he
  rw [he, h.free] at hu
  simp at hu

/-- A port that is in use is passed, and the nearest one is nearest from the next port on. -/
theorem of_next (hs : HandedOut start) (hu : r.has ⟨cid, start⟩ = true)
    (h : Nearest r cid (nextPort start) port) : Nearest r cid start port where
  handedOut := h.handedOut
  free := h.free
  passed := by
    intro q hq hlt
    have hport := ahead_nextPort hs h.handedOut (h.start_ne hu)
    by_cases he : start = q
    · rw [← he]
      exact hu
    · have hnear := ahead_nextPort hs hq he
      exact h.passed q hq (by omega)

end Nearest

namespace Network

variable {n n' m : Network} {cid port next p q : UInt32} {j k : Nat}

/-- Moves the counter past the port that it is at. -/
def pass (n : Network) : Network := { n with counter := nextPort n.counter }

@[simp] theorem pass_counter (n : Network) : n.pass.counter = nextPort n.counter := rfl

/-- A search that ends, with the number of its rounds, the port that it finds and what it leaves.
The counter is moved on in every round, also in the one that finds the port. -/
inductive Search (cid : UInt32) : Network → Nat → UInt32 → Network → Prop where
  | last {n : Network} (hf : n.registry.has ⟨cid, n.counter⟩ = false) :
      Search cid n 1 n.counter n.pass
  | more {n n' : Network} {k : Nat} {port : UInt32}
      (hu : n.registry.has ⟨cid, n.counter⟩ = true) (h : Search cid n.pass k port n') :
      Search cid n (k + 1) port n'

namespace Search

theorem unique (h : Search cid n k port n') (h' : Search cid n j q m) :
    j = k ∧ q = port ∧ m = n' := by
  induction h generalizing j with
  | last hf =>
    cases h' with
    | last => exact ⟨rfl, rfl, rfl⟩
    | more hu => simp [hf] at hu
  | more hu _ ih =>
    cases h' with
    | last hf => simp [hf] at hu
    | more _ h' =>
      obtain ⟨rfl, rfl, rfl⟩ := ih h'
      exact ⟨rfl, rfl, rfl⟩

/-- Nothing but the counter is changed, and it is past the port that is found. -/
theorem network_eq (h : Search cid n k port n') : n' = { n with counter := nextPort port } := by
  induction h with
  | last => rfl
  | more _ _ ih => exact ih

theorem nearest (h : Search cid n k port n') (hc : HandedOut n.counter) :
    Nearest n.registry cid n.counter port := by
  induction h with
  | last hf => exact .refl hc hf
  | more hu _ ih => exact .of_next hc hu (ih (handedOut_nextPort hc))

/-- Every round but the last passes one port. -/
theorem rounds_eq (h : Search cid n k port n') (hc : HandedOut n.counter) :
    k = ahead n.counter port + 1 := by
  induction h with
  | last => rw [ahead_self]
  | more hu h ih =>
    have hn := h.nearest (handedOut_nextPort hc)
    have hnear := ahead_nextPort hc hn.handedOut (hn.start_ne hu)
    rw [hnear, ih (handedOut_nextPort hc), pass_counter]

end Search

theorem exists_search (hc : HandedOut n.counter) (hp : HandedOut p)
    (hf : n.registry.has ⟨cid, p⟩ = false) : ∃ k port n', Search cid n k port n' := by
  -- the free port comes nearer with every round that finds nothing
  induction hd : ahead n.counter p using Nat.strongRecOn generalizing n with
  | ind d ih =>
    by_cases hu : n.registry.has ⟨cid, n.counter⟩ = true
    · have hne : n.counter ≠ p := by
        intro he
        rw [he, hf] at hu
        simp at hu
      have hlt : ahead n.pass.counter p < d := by
        rw [← hd, ahead_nextPort hc hp hne]
        exact Nat.lt_succ_self _
      obtain ⟨k, port, n', h⟩ := @ih _ hlt n.pass (handedOut_nextPort hc) hf rfl
      exact ⟨_, _, _, .more hu h⟩
    · exact ⟨_, _, _, .last (Bool.eq_false_iff.mpr hu)⟩

theorem search_of_freePort? (h : freePort? n.registry cid j n.counter = some port) :
    ∃ k ≤ j, Search cid n k port { n with counter := nextPort port } := by
  induction j generalizing n with
  | zero => simp [freePort?] at h
  | succ j ih =>
    unfold freePort? at h
    split at h
    · rename_i hu
      obtain ⟨k, hk, hs⟩ := @ih n.pass h
      exact ⟨k + 1, Nat.succ_le_succ hk, .more hu hs⟩
    · rename_i hu
      cases h
      exact ⟨1, Nat.succ_le_succ (Nat.zero_le j), .last (Bool.eq_false_iff.mpr hu)⟩

/-- What is handed out is what the search comes to, in one round more than there are endpoints at
most. -/
theorem allocate?_eq_some_iff (hc : HandedOut n.counter) :
    allocate? n.registry cid n.counter = some (port, next) ↔
      ∃ k ≤ n.boundEndpoints + 1, Search cid n k port { n with counter := next } := by
  constructor
  · intro h
    obtain ⟨q, hq, he⟩ := Option.map_eq_some_iff.mp h
    cases he
    exact search_of_freePort? hq
  · rintro ⟨k, -, h⟩
    have hnext : next = nextPort port := congrArg Network.counter h.network_eq
    rw [hnext]
    exact allocate?_of_nextFree hc ((h.nearest hc).nextFree hc)

/-- Nothing is handed out when the search goes on for ever. -/
theorem allocate?_eq_none_iff (hc : HandedOut n.counter) :
    allocate? n.registry cid n.counter = none ↔ ∀ k port n', ¬ Search cid n k port n' := by
  constructor
  · intro h k port n' hs
    have hn := hs.nearest hc
    have hsome := allocate?_isSome hc hn.handedOut hn.free
    simp [h] at hsome
  · intro h
    rw [Option.eq_none_iff_forall_ne_some]
    rintro ⟨port, next⟩ ha
    obtain ⟨k, -, hs⟩ := (allocate?_eq_some_iff hc).mp ha
    exact h _ _ _ hs

/-- From any counter among the ports that are handed out, and in any context in which one of them is
free, the search ends, in one way only. It finds the nearest free port in the cycle from the counter
on, which is one of those handed out, in one round more than it passes ports, and it passes no more
than there are endpoints. It leaves all but the counter as it was, and the counter behind the port
that it finds, in the cycle: behind the last port it starts over. This is what is handed out, and
nothing is handed out only where the search goes on for ever. In every run, also between the
sections of calls, the counter is among the ports that are handed out. -/
theorem nearest_of_search :
    (∀ (n : Network) (cid : UInt32), HandedOut n.counter →
      (∃ p, HandedOut p ∧ n.registry.has ⟨cid, p⟩ = false) →
      ∃ port m, Search cid n (ahead n.counter port + 1) port m ∧
        (∀ k q m', Search cid n k q m' → k = ahead n.counter port + 1 ∧ q = port ∧ m' = m) ∧
        allocate? n.registry cid n.counter = some (port, m.counter) ∧
        n.choosePort cid anyPort = some (port, m) ∧
        Nearest n.registry cid n.counter port ∧
        ahead n.counter port ≤ n.boundEndpoints ∧
        m = { n with counter := if port = lastPort then firstPort else port + 1 } ∧
        HandedOut m.counter) ∧
    (∀ (n : Network) (cid : UInt32), HandedOut n.counter →
      (allocate? n.registry cid n.counter = none ↔ ∀ k port m, ¬ Search cid n k port m)) ∧
    (∀ (cid : UInt32) (tr : List Race.Moment) (R : Race),
      Race.Run (Race.idle (ofCid cid)) tr R → HandedOut R.network.counter) := by
  refine ⟨?_, fun n cid hc => allocate?_eq_none_iff hc, ?_⟩
  · rintro n cid hc ⟨p, hp, hf⟩
    obtain ⟨k, port, m, h⟩ := exists_search hc hp hf
    have hnear := h.nearest hc
    have hm := h.network_eq
    have hk := h.rounds_eq hc
    subst hk
    have ha : allocate? n.registry cid n.counter = some (port, m.counter) := by
      rw [hm]
      exact allocate?_of_nextFree hc (hnear.nextFree hc)
    -- what is handed out was found in a bounded number of rounds, and the search is the same
    obtain ⟨j, hj, h'⟩ := (allocate?_eq_some_iff hc).mp ha
    have hrounds := (h.unique h').1
    refine ⟨port, m, h, fun k q m' h' => h.unique h', ha, ?_, hnear, by omega, ?_, ?_⟩
    · rw [choosePort, if_pos rfl, ha, hm]
      rfl
    · rw [hm, nextPort_eq]
    · rw [hm]
      exact handedOut_nextPort hnear.handedOut
  · intro cid tr R h
    exact Race.handedOut_of_run h handedOut_firstPort

/-- The counter is at the last port, which is in use, and so is the first, at which the cycle starts
over: the next one is found, though another context uses it. A port chosen for a socket in a new
network leaves the counter among those that are handed out. -/
theorem nearest_of_wrapping_search :
    ∃ (n : Network) (tr : List Race.Moment) (R : Race),
      n.counter = lastPort ∧
      n.registry = [(⟨3, lastPort⟩, none), (⟨3, firstPort⟩, some 0), (⟨4, 40001⟩, none)] ∧
      Search 3 n 3 40001 { n with counter := 40002 } ∧
      allocate? n.registry 3 lastPort = some (40001, 40002) ∧
      n.choosePort 3 anyPort = some (40001, { n with counter := 40002 }) ∧
      Nearest n.registry 3 lastPort 40001 ∧
      Race.Run (Race.idle (ofCid 3)) tr R ∧ R.network.counter = 40001 ∧
      HandedOut R.network.counter := by
  let n : Network :=
    ⟨3, [(⟨3, lastPort⟩, none), (⟨3, firstPort⟩, some 0), (⟨4, 40001⟩, none)], lastPort, [], [], []⟩
  have hs : Search 3 n 3 40001 { n with counter := 40002 } := .more rfl (.more rfl (.last rfl))
  have hc : HandedOut n.counter := by constructor <;> decide
  have hp : HandedOut 40001 := by constructor <;> decide
  obtain ⟨port, m, -, hu, ha, hchosen, hn, -⟩ := nearest_of_search.1 n 3 hc ⟨40001, hp, rfl⟩
  obtain ⟨-, rfl, rfl⟩ := hu _ _ _ hs
  have hr := Race.Run.nil (R := Race.idle (ofCid 3))
    |>.snoc (.atOnce rfl (fun _ _ => rfl) (.call (q := .socket) rfl))
    |>.snoc (.atOnce rfl (fun _ _ => rfl) (.call (q := .bind 0 (Descriptor.bind 3 anyPort)) rfl))
  exact ⟨n, _, _, rfl, rfl, hs, ha, hchosen, hn, hr, rfl, nearest_of_search.2.2 _ _ _ hr⟩

end Network
end Handoff.Loopback
