import Handoff.Proofs.Loopback.Change
import Handoff.Proofs.Loopback.Places

/-!
Who holds the ends of connections. Every end is held once at most, by a socket or, before it is
accepted, by a place in a queue, and an end that nobody holds any more is never held again.
-/
namespace Handoff.Loopback.Network

/-- The accepted ends that wait in a queue. -/
def waiting (queue : Queue) : List (Nat × Side) :=
  queue.pending.map fun p => (p.connection, .callee)

/-- All ends that are held. -/
def ends (n : Network) : List (Nat × Side) :=
  n.slots.filterMap Slot.end? ++ n.queues.flatMap waiting

structure Wired (n : Network) : Prop where
  nodup : n.ends.Nodup
  made : ∀ x ∈ n.ends, x.1 < n.connections.length

theorem wired_ofCid (cid : UInt32) : Wired (ofCid cid) where
  nodup := List.nodup_nil
  made := by simp [ofCid, ends]

theorem getElem?_of_end? {n : Network} {s : Nat} {x : Nat × Side} (h : (n.slot s).end? = some x) :
    n.slots[s]? = some (n.slot s) := by
  refine getElem?_of_slot rfl ?_
  intro hc
  rw [hc] at h
  simp [Slot.end?] at h

theorem mem_ends_of_slot {n : Network} {s : Nat} {x : Nat × Side} (h : (n.slot s).end? = some x) :
    x ∈ n.ends := by
  have hm := List.mem_of_getElem? (getElem?_of_end? h)
  exact List.mem_append_left _ (List.mem_filterMap.mpr ⟨_, hm, h⟩)

theorem mem_ends_of_pending {n : Network} {q : Nat} {queue : Queue} {p : Pending}
    (hq : n.queues[q]? = some queue) (hp : p ∈ queue.pending) :
    (p.connection, .callee) ∈ n.ends :=
  List.mem_append_right _ (List.mem_flatMap.mpr
    ⟨queue, List.mem_of_getElem? hq, List.mem_map.mpr ⟨p, hp, rfl⟩⟩)

/-- The end of a connection that is accepted moves from the queue to the new socket. -/
theorem ends_of_accepted {n : Network} {q : Nat} {queue : Queue} {p : Pending}
    {rest : List Pending} (hq : n.queues[q]? = some queue) (hp : queue.pending = p :: rest) :
    ({ n with
      queues := n.queues.set q { queue with pending := rest }
      slots := n.slots ++ [.connected p.own p.connection .callee] } : Network).ends.Perm
        n.ends := by
  have hm := perm_flatMap_set waiting hq { queue with pending := rest }
  have hw : waiting queue = (p.connection, .callee) :: waiting { queue with pending := rest } := by
    simp [waiting, hp]
  rw [hw, List.cons_append] at hm
  have hm := (List.perm_append_left_iff _).mp (List.perm_middle.trans hm)
  rw [ends, ends, List.filterMap_append, List.append_assoc]
  exact hm.append_left _

/-- A caller that is connected adds the two ends of a new connection. -/
theorem ends_of_connected {n : Network} {s q : Nat} {bound : Option Descriptor} {queue : Queue}
    (own : Descriptor) {p : Pending} (hs : n.slot s = Slot.ofCaller bound)
    (hq : n.queues[q]? = some queue) (hp : p.connection = n.connections.length) :
    ((n.slots.set s (.connected own n.connections.length .caller)).filterMap Slot.end? ++
      (n.queues.set q (queue.push p)).flatMap waiting).Perm
      ((n.connections.length, .caller) :: (n.connections.length, .callee) :: n.ends) := by
  have hb : (Slot.ofCaller bound).end? = none := by cases bound <;> rfl
  have hg := getElem?_of_slot hs (Slot.ofCaller_ne_closed bound)
  have h1 := perm_filterMap_set Slot.end? hg (.connected own n.connections.length .caller)
  rw [hb] at h1
  have h2 := perm_flatMap_set waiting hq (queue.push p)
  have hw : waiting (queue.push p) = waiting queue ++ [(n.connections.length, .callee)] := by
    simp [waiting, Queue.push, hp]
  rw [hw, List.append_assoc] at h2
  have h2 := (List.perm_append_left_iff _).mp h2
  exact (h1.append h2).trans (List.perm_middle.cons _)

/-- A socket that is given up lets its end go, and those that wait in its queue. -/
theorem ends_of_drop (n : Network) (s : Nat) : ∃ gone, (gone ++ (n.drop s).ends).Perm n.ends := by
  have h1 : ∃ gone, (gone ++ (n.drop s).slots.filterMap Slot.end?).Perm
      (n.slots.filterMap Slot.end?) := by
    rw [drop_slots]
    cases hg : n.slots[s]? with
    | none =>
      rw [List.set_eq_of_length_le (List.getElem?_eq_none_iff.mp hg)]
      exact ⟨[], List.Perm.refl _⟩
    | some t => exact ⟨t.end?.toList, perm_filterMap_set Slot.end? hg .closed⟩
  have h2 : ∃ gone, (gone ++ (n.drop s).queues.flatMap waiting).Perm
      (n.queues.flatMap waiting) := by
    rw [drop_queues]
    split
    · rename_i q _
      cases hq : n.queues[q]? with
      | none =>
        rw [List.modify_eq_self (List.getElem?_eq_none_iff.mp hq)]
        exact ⟨[], List.Perm.refl _⟩
      | some queue =>
        rw [List.modify_eq_set_getElem?, hq]
        exact ⟨waiting queue, perm_flatMap_set waiting hq queue.close⟩
    · exact ⟨[], List.Perm.refl _⟩
  obtain ⟨g1, h1⟩ := h1
  obtain ⟨g2, h2⟩ := h2
  refine ⟨g1 ++ g2, ?_⟩
  refine List.Perm.trans ?_ (h1.append h2)
  rw [ends, List.append_assoc, List.append_assoc]
  exact (List.perm_append_comm_assoc _ _ _).append_left _

/-- Only giving up lets ends go. Any other change keeps them, or adds the two of a new
connection. -/
theorem ends_of_change {n n' : Network} {e : Event} (h : Change n e n')
    (hd : ∀ s, e ≠ .dropped s) :
    n'.ends.Perm n.ends ∧ n'.connections.length = n.connections.length ∨
    n'.ends.Perm ((n.connections.length, .caller) :: (n.connections.length, .callee) :: n.ends) ∧
      n'.connections.length = n.connections.length + 1 := by
  have hset {s : Nat} {t t' : Slot} (hs : n.slot s = t) (hc : t ≠ .closed) (ht : t.end? = none)
      (ht' : t'.end? = none) :
      (n.slots.set s t').filterMap Slot.end? = n.slots.filterMap Slot.end? :=
    filterMap_set_of_eq (getElem?_of_slot hs hc) (ht'.trans ht.symm)
  cases h with
  | failed _ _ => exact .inl ⟨List.Perm.refl _, rfl⟩
  | told _ => exact .inl ⟨List.Perm.refl _, rfl⟩
  | made =>
    refine .inl ⟨?_, rfl⟩
    rw [ends, ends, List.filterMap_append]
    change (n.slots.filterMap Slot.end? ++ [] ++ n.queues.flatMap waiting).Perm _
    rw [List.append_nil]
  | bound hs _ _ _ =>
    refine .inl ⟨?_, rfl⟩
    rw [ends, ends, hset hs (by simp) rfl rfl]
  | listening hs =>
    refine .inl ⟨?_, rfl⟩
    rw [ends, ends, hset hs (by simp) rfl rfl, List.flatMap_append]
    simp [waiting, Queue.ofBacklog]
  | accepted _ hq hp => exact .inl ⟨ends_of_accepted hq hp, rfl⟩
  | connected hs hr hq ht => exact .inr ⟨ends_of_connected _ hs hq rfl, by simp⟩
  | crowded _ _ _ => exact .inl ⟨List.Perm.refl _, rfl⟩
  | sent _ _ _ => exact .inl ⟨List.Perm.refl _, by simp⟩
  | received _ _ _ => exact .inl ⟨List.Perm.refl _, by simp⟩
  | shut _ => exact .inl ⟨List.Perm.refl _, by simp [modifyConnection]⟩
  | dropped s => exact absurd rfl (hd s)

namespace Wired

variable {n n' : Network} {e : Event}

theorem of_perm (h : Wired n) (hp : n'.ends.Perm n.ends)
    (hl : n'.connections.length = n.connections.length) : Wired n' where
  nodup := hp.nodup_iff.mpr h.nodup
  made := fun x hx => hl ▸ h.made x (hp.mem_iff.mp hx)

/-- A new connection has ends that nobody held before. -/
theorem of_new (h : Wired n)
    (hp : n'.ends.Perm
      ((n.connections.length, .caller) :: (n.connections.length, .callee) :: n.ends))
    (hl : n'.connections.length = n.connections.length + 1) : Wired n' := by
  have hnew (side : Side) : (n.connections.length, side) ∉ n.ends :=
    fun hx => Nat.lt_irrefl _ (h.made _ hx)
  constructor
  · rw [hp.nodup_iff]
    simp [hnew, h.nodup]
  · intro x hx
    rw [hl]
    rcases List.mem_cons.mp (hp.mem_iff.mp hx) with rfl | hx
    · exact Nat.lt_succ_self _
    rcases List.mem_cons.mp hx with rfl | hx
    · exact Nat.lt_succ_self _
    · exact Nat.lt_succ_of_lt (h.made x hx)

theorem drop (h : Wired n) (s : Nat) : Wired (n.drop s) := by
  obtain ⟨gone, hg⟩ := ends_of_drop n s
  constructor
  · exact (List.nodup_append.mp (hg.nodup_iff.mpr h.nodup)).2.1
  · intro x hx
    rw [drop_connections, length_severed]
    exact h.made x (hg.mem_iff.mp (List.mem_append_right _ hx))

theorem step (h : Wired n) (hc : Change n e n') : Wired n' := by
  by_cases hd : ∀ s, e ≠ .dropped s
  · rcases ends_of_change hc hd with ⟨hp, hl⟩ | ⟨hp, hl⟩
    · exact h.of_perm hp hl
    · exact h.of_new hp hl
  · simp only [not_forall, not_not] at hd
    obtain ⟨s, rfl⟩ := hd
    cases hc
    exact h.drop s

end Wired

theorem wired_of_run {n n' : Network} {tr : List Moment} (h : Run n tr n') (hw : Wired n) :
    Wired n' := by
  induction h with
  | nil => exact hw
  | snoc _ hs ih => exact ih.step (change_of_step hs)

theorem waitingIn_of_queues {n n' : Network} {q q' : Nat} (h : n'.queues[q']? = n.queues[q]?) :
    n'.waitingIn q' = n.waitingIn q := by rw [waitingIn, h, waitingIn]

theorem waitingIn_of_getElem? {n : Network} {q : Nat} {queue : Queue}
    (h : n.queues[q]? = some queue) : n.waitingIn q = queue.pending := by rw [waitingIn, h]

theorem exists_queue_of_mem {n : Network} {q : Nat} {p : Pending} (h : p ∈ n.waitingIn q) :
    ∃ queue, n.queues[q]? = some queue ∧ p ∈ queue.pending := by
  cases hq : n.queues[q]? with
  | none => simp [waitingIn, hq] at h
  | some queue => exact ⟨queue, rfl, waitingIn_of_getElem? hq ▸ h⟩

theorem exists_queue_of_waitingIn {n : Network} {q : Nat} {p : Pending} {rest : List Pending}
    (h : n.waitingIn q = p :: rest) :
    ∃ queue, n.queues[q]? = some queue ∧ queue.pending = p :: rest := by
  cases hq : n.queues[q]? with
  | none => simp [waitingIn, hq] at h
  | some queue => exact ⟨queue, rfl, (waitingIn_of_getElem? hq).symm.trans h⟩

/-- Whoever holds an end is a socket, or a place in a queue. -/
theorem mem_ends_iff {n : Network} {x : Nat × Side} :
    x ∈ n.ends ↔ (∃ s, (n.slot s).end? = some x) ∨
      ∃ q, ∃ p ∈ n.waitingIn q, (p.connection, Side.callee) = x := by
  constructor
  · intro h
    rcases List.mem_append.mp h with h | h
    · obtain ⟨t, ht, hx⟩ := List.mem_filterMap.mp h
      obtain ⟨s, hs⟩ := List.mem_iff_getElem?.mp ht
      exact .inl ⟨s, by rw [slot_of_getElem? hs]; exact hx⟩
    · obtain ⟨queue, hm, hw⟩ := List.mem_flatMap.mp h
      obtain ⟨q, hq⟩ := List.mem_iff_getElem?.mp hm
      obtain ⟨p, hp, hx⟩ := List.mem_map.mp hw
      exact .inr ⟨q, p, waitingIn_of_getElem? hq ▸ hp, hx⟩
  · rintro (⟨s, hs⟩ | ⟨q, p, hp, rfl⟩)
    · exact mem_ends_of_slot hs
    · obtain ⟨queue, hq, hp⟩ := exists_queue_of_mem hp
      exact mem_ends_of_pending hq hp

/-- Two sockets do not hold one end. -/
theorem Wired.holder_unique {n : Network} (h : Wired n) {s t : Nat} {x : Nat × Side}
    (hs : (n.slot s).end? = some x) (ht : (n.slot t).end? = some x) : s = t := by
  have hn := (List.nodup_append.mp h.nodup).1
  exact place_unique hn (getElem?_of_end? hs) (getElem?_of_end? ht) hs ht

/-- An end that a socket holds does not wait in a queue. -/
theorem Wired.not_waiting {n : Network} (h : Wired n) {s q : Nat} {x : Nat × Side}
    (hs : (n.slot s).end? = some x) {p : Pending} (hp : p ∈ n.waitingIn q) :
    (p.connection, .callee) ≠ x := by
  intro he
  have hm := List.mem_of_getElem? (getElem?_of_end? hs)
  obtain ⟨queue, hq, hp⟩ := exists_queue_of_mem hp
  refine (List.nodup_append.mp h.nodup).2.2 x (List.mem_filterMap.mpr ⟨_, hm, hs⟩) x ?_ rfl
  rw [← he]
  exact List.mem_flatMap.mpr ⟨queue, List.mem_of_getElem? hq, List.mem_map.mpr ⟨p, hp, rfl⟩⟩

/-- An end does not wait in two queues. -/
theorem Wired.queue_unique {n : Network} (h : Wired n) {q q' : Nat} {p p' : Pending}
    (hp : p ∈ n.waitingIn q) (hp' : p' ∈ n.waitingIn q') (he : p.connection = p'.connection) :
    q = q' := by
  obtain ⟨queue, hq, hp⟩ := exists_queue_of_mem hp
  obtain ⟨queue', hq', hp'⟩ := exists_queue_of_mem hp'
  have hn := (List.nodup_append.mp h.nodup).2.1
  exact place_unique_flatMap hn hq hq' (List.mem_map.mpr ⟨p, hp, rfl⟩)
    (List.mem_map.mpr ⟨p', hp', by rw [he]⟩)

end Handoff.Loopback.Network
