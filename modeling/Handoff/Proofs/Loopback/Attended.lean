import Handoff.Proofs.Loopback.Holders

/-!
Queues and who listens on them. A queue is open as long as it is listened on, and closed and empty
ever after; so an end of a connection that is held is held by a socket, or waits in the open queue
of a listener.
-/
namespace Handoff.Loopback

namespace Network

variable {n n' : Network} {e : Event} {s : Nat}

/-- What is read off the slots does not change with a slot from which the same is read. -/
theorem slot_map_of_set {α : Type} (f : Slot → α) {t : Slot} (h : n'.slots = n.slots.set s t)
    (ht : f t = f (n.slot s)) (k : Nat) : f (n'.slot k) = f (n.slot k) := by
  by_cases hs : s < n.slots.length
  · rw [slot_of_slots_set h hs]
    split
    · rename_i hk
      rw [hk, ht]
    · rfl
  · rw [List.set_eq_of_length_le (Nat.le_of_not_lt hs)] at h
    rw [slot, slot, h]

theorem slot_map_of_append {α : Type} (f : Slot → α) {t : Slot} (h : n'.slots = n.slots ++ [t])
    (ht : f t = f .closed) (k : Nat) : f (n'.slot k) = f (n.slot k) := by
  rw [slot_of_slots_append h]
  split
  · rename_i hk
    rw [ht, hk, slot, List.getElem?_eq_none_iff.mpr (Nat.le_refl _)]
    rfl
  · rfl

@[simp] theorem slot_release (n : Network) (e : Endpoint) (s : Nat) :
    (n.release e).slot s = n.slot s := rfl

@[simp] theorem slot_modifyConnection (n : Network) (c : Nat) (f : Connection → Connection)
    (s : Nat) : (n.modifyConnection c f).slot s = n.slot s := rfl

/-! ### Queues and their listeners -/

/-- Every queue that is listened on has one listener and is open. One that is not listened on is
closed and empty. -/
structure Attended (n : Network) : Prop where
  unique : ∀ s t q, (n.slot s).queue? = some q → (n.slot t).queue? = some q → s = t
  opened : ∀ s q, (n.slot s).queue? = some q →
    ∃ queue, n.queues[q]? = some queue ∧ queue.closed = false
  deserted : ∀ q queue, n.queues[q]? = some queue → (∀ s, (n.slot s).queue? ≠ some q) →
    queue.closed = true ∧ queue.pending = []

/-- The queues are as they were, but for one at most that is open and stays open. -/
def SameQueues (n n' : Network) : Prop :=
  n'.queues = n.queues ∨ ∃ q queue queue', n.queues[q]? = some queue ∧ queue.closed = false ∧
    n'.queues = n.queues.set q queue' ∧ queue'.closed = false

namespace Attended

theorem of_same (h : Attended n) (hs : ∀ k, (n'.slot k).queue? = (n.slot k).queue?)
    (hq : SameQueues n n') : Attended n' := by
  constructor
  · intro s t q hx hy
    rw [hs] at hx hy
    exact h.unique s t q hx hy
  · intro s q hx
    rw [hs] at hx
    obtain ⟨queue, hk, hopen⟩ := h.opened s q hx
    rcases hq with hq | ⟨q₀, queue₀, queue', h₀, ho, hq, hc⟩
    · exact ⟨queue, hq ▸ hk, hopen⟩
    · exact keepsOpen_of_set hq h₀ (hc.trans ho.symm) q queue hk hopen
  · intro q queue hk hn
    have hn : ∀ s, (n.slot s).queue? ≠ some q := fun s hx => hn s ((hs s).trans hx)
    rcases hq with hq | ⟨q₀, queue₀, queue', h₀, ho, hq, -⟩
    · exact h.deserted q queue (hq ▸ hk) hn
    · have hne : q₀ ≠ q := by
        rintro rfl
        have hc := (h.deserted q₀ queue₀ h₀ hn).1
        simp [ho] at hc
      rw [hq, List.getElem?_set_ne hne] at hk
      exact h.deserted q queue hk hn

theorem lt (h : Attended n) {s q : Nat} (hs : (n.slot s).queue? = some q) :
    q < n.queues.length := by
  obtain ⟨queue, hq, -⟩ := h.opened s q hs
  exact (List.getElem?_eq_some_iff.mp hq).1

/-- A new queue with its listener. -/
theorem listen {own : Descriptor} {queue : Queue} (h : Attended n) (hl : s < n.slots.length)
    (hs : (n.slot s).queue? = none) (hc : queue.closed = false)
    (hslots : n'.slots = n.slots.set s (.listening own n.queues.length))
    (hqueues : n'.queues = n.queues ++ [queue]) : Attended n' := by
  have hx (k : Nat) : (n'.slot k).queue? =
      if k = s then some n.queues.length else (n.slot k).queue? := by
    rw [slot_of_slots_set hslots hl]
    split <;> rfl
  have hold {k q : Nat} (hk : (n'.slot k).queue? = some q) (hks : k ≠ s) :
      (n.slot k).queue? = some q ∧ q < n.queues.length := by
    rw [hx, if_neg hks] at hk
    exact ⟨hk, h.lt hk⟩
  have hnew {q : Nat} (hq : (n'.slot s).queue? = some q) : q = n.queues.length := by
    rw [hx, if_pos rfl] at hq
    exact (Option.some.inj hq).symm
  constructor
  · intro k t q hk ht
    by_cases hks : k = s <;> by_cases hts : t = s
    · exact hks.trans hts.symm
    · subst hks
      have hlt := (hold ht hts).2
      exact absurd hlt (by rw [hnew hk]; exact Nat.lt_irrefl _)
    · subst hts
      have hlt := (hold hk hks).2
      exact absurd hlt (by rw [hnew ht]; exact Nat.lt_irrefl _)
    · exact h.unique k t q (hold hk hks).1 (hold ht hts).1
  · intro k q hk
    rw [hqueues]
    by_cases hks : k = s
    · subst hks
      rw [hnew hk]
      exact ⟨queue, by simp, hc⟩
    · obtain ⟨hk, hlt⟩ := hold hk hks
      rw [List.getElem?_append_left hlt]
      exact h.opened k q hk
  · intro q queue' hk hn
    have hne : q ≠ n.queues.length := by
      rintro rfl
      exact hn s (by rw [hx, if_pos rfl])
    have hlt : q < n.queues.length := by
      have hl := (List.getElem?_eq_some_iff.mp hk).1
      rw [hqueues, List.length_append, List.length_singleton] at hl
      omega
    rw [hqueues, List.getElem?_append_left hlt] at hk
    refine h.deserted q queue' hk ?_
    intro k hkq
    refine hn k ?_
    rw [hx, if_neg, hkq]
    rintro rfl
    simp [hs] at hkq

/-- A listener that goes leaves its queue closed and empty. -/
theorem desert {own : Descriptor} {q : Nat} (h : Attended n) (hs : n.slot s = .listening own q)
    (hslots : n'.slots = n.slots.set s .closed)
    (hqueues : n'.queues = n.queues.modify q Queue.close) : Attended n' := by
  have hl := lt_of_slot hs (by simp)
  have hsq : (n.slot s).queue? = some q := by rw [hs]; rfl
  have hx (k : Nat) : (n'.slot k).queue? = if k = s then none else (n.slot k).queue? := by
    rw [slot_of_slots_set hslots hl]
    split <;> rfl
  have hold {k k' : Nat} (hk : (n'.slot k).queue? = some k') :
      k ≠ s ∧ (n.slot k).queue? = some k' := by
    rw [hx] at hk
    split at hk
    · simp at hk
    · exact ⟨‹_›, hk⟩
  constructor
  · intro k t k' hk ht
    exact h.unique k t k' (hold hk).2 (hold ht).2
  · intro k k' hk
    obtain ⟨hks, hk⟩ := hold hk
    have hne : q ≠ k' := by
      rintro rfl
      exact hks (h.unique k s q hk hsq)
    rw [hqueues, List.getElem?_modify_ne _ _ hne]
    exact h.opened k k' hk
  · intro k' queue hk hn
    rw [hqueues] at hk
    by_cases hq : q = k'
    · subst hq
      rw [List.getElem?_modify_eq] at hk
      obtain ⟨old, -, rfl⟩ := Option.map_eq_some_iff.mp hk
      exact ⟨rfl, rfl⟩
    · rw [List.getElem?_modify_ne _ _ hq] at hk
      refine h.deserted k' queue hk ?_
      intro k hkk
      refine hn k ?_
      rw [hx, if_neg, hkk]
      rintro rfl
      rw [hsq] at hkk
      exact hq (Option.some.inj hkk)

/-- A queue that is open, or not empty, is open and listened on. -/
theorem listened (h : Attended n) {q : Nat} {queue : Queue} (hq : n.queues[q]? = some queue)
    (hx : queue.closed = false ∨ queue.pending ≠ []) :
    queue.closed = false ∧ ∃ s own, n.slot s = .listening own q := by
  by_cases hl : ∀ s, (n.slot s).queue? ≠ some q
  · obtain ⟨hc, hp⟩ := h.deserted q queue hq hl
    rcases hx with hx | hx
    · simp [hc] at hx
    · exact absurd hp hx
  · simp only [not_forall, not_not] at hl
    obtain ⟨s, hs⟩ := hl
    obtain ⟨queue', hq', hopen⟩ := h.opened s q hs
    cases hq.symm.trans hq'
    cases hslot : n.slot s with
    | listening own k =>
      rw [hslot] at hs
      cases hs
      exact ⟨hopen, s, own, hslot⟩
    | fresh | bound own | connected own c side | closed => simp [hslot, Slot.queue?] at hs

end Attended

/-- A connection that is in the open queue of a listener. -/
def Queued (n : Network) (c : Nat) : Prop :=
  ∃ (s : Nat) (own : Descriptor) (q : Nat) (queue : Queue), n.slot s = .listening own q ∧
    n.queues[q]? = some queue ∧ queue.closed = false ∧ ∃ p ∈ queue.pending, p.connection = c

/-- An end that a socket holds, or that is in the open queue of a listener. -/
def Held (n : Network) (c : Nat) (side : Side) : Prop :=
  (∃ s own, n.slot s = .connected own c side) ∨ side = .callee ∧ n.Queued c

theorem Attended.queued (h : Attended n) {q : Nat} {p : Pending} (hp : p ∈ n.waitingIn q) :
    n.Queued p.connection := by
  obtain ⟨queue, hq, hp⟩ := exists_queue_of_mem hp
  obtain ⟨hopen, s, own, hs⟩ := h.listened hq (.inr (List.ne_nil_of_mem hp))
  exact ⟨s, own, q, queue, hs, hq, hopen, p, hp, rfl⟩

theorem Attended.held (h : Attended n) {c : Nat} {side : Side} (hx : (c, side) ∈ n.ends) :
    n.Held c side := by
  rcases mem_ends_iff.mp hx with ⟨s, hs⟩ | ⟨q, p, hp, he⟩
  · obtain ⟨own, hslot⟩ := slot_of_end? hs
    exact .inl ⟨s, own, hslot⟩
  · cases he
    exact .inr ⟨rfl, h.queued hp⟩

end Network

end Handoff.Loopback
