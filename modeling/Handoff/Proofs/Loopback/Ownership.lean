import Handoff.Proofs.Loopback.Change
import Handoff.Proofs.Loopback.Places

/-!
Who owns an endpoint. The registry is, but for its order, the list of what the sockets hold: one
entry for each socket that is bound, listens, or asked for its connection, and none for the
accepted ones. The main statement is `registry_of_run`.
-/
namespace Handoff.Loopback

namespace Network

/-- The invariant of the registry: it lists what the sockets hold, every endpoint once, and the
queues of listening sockets are their own and open. -/
structure Owned (n : Network) : Prop where
  counter : HandedOut n.counter
  nodup : n.registry.keys.Nodup
  held : n.registry.Perm (n.slots.filterMap Slot.holding?)
  named : ∀ e ∈ n.registry.keys, e.port ≠ anyPort
  queues : (n.slots.filterMap Slot.queue?).Nodup
  opened : ∀ q ∈ n.slots.filterMap Slot.queue?, ∃ queue, n.queues[q]? = some queue ∧
    queue.closed = false

theorem owned_ofCid (cid : UInt32) : Owned (ofCid cid) where
  counter := handedOut_firstPort
  nodup := List.nodup_nil
  held := List.Perm.refl _
  named := by simp [ofCid, Registry.keys]
  queues := List.nodup_nil
  opened := by simp [ofCid]

/-- A network whose queues that are open stay open. -/
def KeepsOpen (n n' : Network) : Prop :=
  ∀ (q : Nat) (queue : Queue), n.queues[q]? = some queue → queue.closed = false →
    ∃ queue' : Queue, n'.queues[q]? = some queue' ∧ queue'.closed = false

theorem keepsOpen_of_eq {n n' : Network} (h : n'.queues = n.queues) : KeepsOpen n n' :=
  fun _ queue hq hc => ⟨queue, h ▸ hq, hc⟩

theorem keepsOpen_of_set {n n' : Network} {q : Nat} {queue queue' : Queue}
    (h : n'.queues = n.queues.set q queue') (hq : n.queues[q]? = some queue)
    (hc : queue'.closed = queue.closed) : KeepsOpen n n' := by
  intro k other hk ho
  rw [h, List.getElem?_set]
  by_cases he : q = k
  · subst he
    have : other = queue := by simpa [hq] using hk.symm
    subst this
    rw [if_pos rfl, if_pos (List.getElem?_eq_some_iff.mp hq).1]
    exact ⟨queue', rfl, hc.trans ho⟩
  · rw [if_neg he]
    exact ⟨other, hk, ho⟩

namespace Owned

variable {n n' : Network}

/-- The same queues are listened on, and they are open still. -/
theorem opened_of (h : Owned n)
    (hl : n'.slots.filterMap Slot.queue? = n.slots.filterMap Slot.queue?) (hq : KeepsOpen n n') :
    ∀ q ∈ n'.slots.filterMap Slot.queue?, ∃ queue, n'.queues[q]? = some queue ∧
      queue.closed = false := by
  intro q hm
  obtain ⟨queue, he, ho⟩ := h.opened q (hl ▸ hm)
  exact hq q queue he ho

/-- What a network owns depends on what its sockets hold. -/
theorem of_holdings (h : Owned n) (hr : n'.registry = n.registry)
    (hh : n'.slots.filterMap Slot.holding? = n.slots.filterMap Slot.holding?)
    (hl : n'.slots.filterMap Slot.queue? = n.slots.filterMap Slot.queue?)
    (hq : KeepsOpen n n') (hc : HandedOut n'.counter) : Owned n' where
  counter := hc
  nodup := hr ▸ h.nodup
  held := hr ▸ hh ▸ h.held
  named := hr ▸ h.named
  queues := hl ▸ h.queues
  opened := h.opened_of hl hq

/-- The connections have no part in it. -/
theorem of_eq (h : Owned n) (hr : n'.registry = n.registry) (hs : n'.slots = n.slots)
    (hq : n'.queues = n.queues) (hc : HandedOut n'.counter) : Owned n' :=
  h.of_holdings hr (by rw [hs]) (by rw [hs]) (keepsOpen_of_eq hq) hc

/-- A new socket that owns nothing. -/
theorem of_append {t : Slot} (h : Owned n) (hr : n'.registry = n.registry)
    (hs : n'.slots = n.slots ++ [t]) (ht : t.holding? = none) (hl : t.queue? = none)
    (hq : KeepsOpen n n') (hc : n'.counter = n.counter) : Owned n' := by
  have hh : n'.slots.filterMap Slot.holding? = n.slots.filterMap Slot.holding? := by
    simp [hs, ht]
  have hl : n'.slots.filterMap Slot.queue? = n.slots.filterMap Slot.queue? := by
    simp [hs, hl]
  exact h.of_holdings hr hh hl hq (hc ▸ h.counter)

/-- A socket that owns the same as before. -/
theorem of_set {s : Nat} {t t' : Slot} (h : Owned n) (hr : n'.registry = n.registry)
    (hs : n'.slots = n.slots.set s t') (hg : n.slots[s]? = some t) (ht : t'.holding? = t.holding?)
    (hl : t'.queue? = t.queue?) (hq : KeepsOpen n n') (hc : n'.counter = n.counter) :
    Owned n' := by
  have hh : n'.slots.filterMap Slot.holding? = n.slots.filterMap Slot.holding? :=
    hs ▸ filterMap_set_of_eq hg ht
  have hl : n'.slots.filterMap Slot.queue? = n.slots.filterMap Slot.queue? :=
    hs ▸ filterMap_set_of_eq hg hl
  exact h.of_holdings hr hh hl hq (hc ▸ h.counter)

/-- A socket that owned nothing claims an endpoint that nobody has. -/
theorem of_claim {s : Nat} {t t' : Slot} {e : Endpoint} (h : Owned n)
    (hf : n.registry.has e = false) (he : e.port ≠ anyPort)
    (hr : n'.registry = n.registry.put e none) (hs : n'.slots = n.slots.set s t')
    (hg : n.slots[s]? = some t) (ht : t.holding? = none) (ht' : t'.holding? = some (e, none))
    (hl : t'.queue? = t.queue?) (hq : KeepsOpen n n') (hc : HandedOut n'.counter) :
    Owned n' := by
  have hr' : n'.registry = n.registry ++ [(e, none)] := hr ▸ Registry.put_eq_append hf none
  have hh := perm_filterMap_set Slot.holding? hg t'
  simp only [ht, ht', Option.toList, List.nil_append, List.singleton_append] at hh
  have hl : n'.slots.filterMap Slot.queue? = n.slots.filterMap Slot.queue? :=
    hs ▸ filterMap_set_of_eq hg hl
  rw [Registry.has_eq_false_iff] at hf
  constructor
  · exact hc
  · rw [hr', Registry.keys, List.map_append, List.nodup_append]
    refine ⟨h.nodup, by simp, ?_⟩
    intro a ha b hb
    have hb : b = e := by simpa using hb
    subst hb
    intro hab
    exact hf (hab ▸ ha)
  · rw [hr', hs]
    exact (List.perm_append_singleton _ _).trans ((h.held.cons _).trans hh.symm)
  · intro f hm
    rw [hr', Registry.keys, List.map_append, List.mem_append] at hm
    rcases hm with hm | hm
    · exact h.named f hm
    · have hf : f = e := by simpa using hm
      exact hf ▸ he
  · exact hl ▸ h.queues
  · exact h.opened_of hl hq

theorem getElem?_of_holding? {s : Nat} {x : Endpoint × Option Nat}
    (h : (n.slot s).holding? = some x) : n.slots[s]? = some (n.slot s) := by
  refine getElem?_of_slot rfl ?_
  intro hc
  rw [hc] at h
  simp [Slot.holding?] at h

theorem mem_holdings {s : Nat} {x : Endpoint × Option Nat} (h : (n.slot s).holding? = some x) :
    x ∈ n.slots.filterMap Slot.holding? :=
  List.mem_filterMap.mpr ⟨_, List.mem_of_getElem? (getElem?_of_holding? h), h⟩

theorem registered (h : Owned n) {s : Nat} {e : Endpoint} {q : Option Nat}
    (hs : (n.slot s).holding? = some (e, q)) : n.registry.get? e = some q :=
  Registry.get?_of_mem h.nodup (h.held.mem_iff.mpr (mem_holdings hs))

theorem owner_unique (h : Owned n) {s t : Nat} {e : Endpoint} {q q' : Option Nat}
    (hs : (n.slot s).holding? = some (e, q)) (ht : (n.slot t).holding? = some (e, q')) :
    s = t := by
  have hn : (n.slots.filterMap fun k => k.holding?.map Prod.fst).Nodup := by
    rw [← List.map_filterMap]
    exact (h.held.map Prod.fst).nodup_iff.mp h.nodup
  exact place_unique hn (getElem?_of_holding? hs) (getElem?_of_holding? ht)
    (by rw [hs]; rfl) (by rw [ht]; rfl)

theorem exists_owner (h : Owned n) {e : Endpoint} {q : Option Nat}
    (he : n.registry.get? e = some q) : ∃ s, (n.slot s).holding? = some (e, q) := by
  have hm := h.held.mem_iff.mp (Registry.mem_of_get? he)
  obtain ⟨t, ht, hq⟩ := List.mem_filterMap.mp hm
  obtain ⟨s, hs⟩ := List.mem_iff_getElem?.mp ht
  exact ⟨s, by rw [slot_of_getElem? hs]; exact hq⟩

theorem exists_listener (h : Owned n) {e : Endpoint} {q : Nat}
    (he : n.registry.get? e = some (some q)) :
    ∃ s own, n.slot s = .listening own q ∧ own.endpoint = e := by
  obtain ⟨s, hs⟩ := h.exists_owner he
  cases ht : n.slot s with
  | listening own k =>
    rw [ht] at hs
    cases hs
    exact ⟨s, own, ht, rfl⟩
  | connected own c side => cases side <;> simp [ht, Slot.holding?] at hs
  | fresh => simp [ht, Slot.holding?] at hs
  | bound own => simp [ht, Slot.holding?] at hs
  | closed => simp [ht, Slot.holding?] at hs

theorem listener_unique (h : Owned n) {s t q : Nat} {own own' : Descriptor}
    (hs : n.slot s = .listening own q) (ht : n.slot t = .listening own' q) : s = t :=
  place_unique h.queues (getElem?_of_slot hs (by simp)) (getElem?_of_slot ht (by simp)) rfl rfl

theorem open_queue (h : Owned n) {s q : Nat} {own : Descriptor}
    (hs : n.slot s = .listening own q) :
    ∃ queue, n.queues[q]? = some queue ∧ queue.closed = false := by
  have hg := getElem?_of_slot hs (by simp)
  exact h.opened q (List.mem_filterMap.mpr ⟨_, List.mem_of_getElem? hg, rfl⟩)

/-- A queue is registered for the endpoint of whoever listens on it. -/
theorem queue?_eq_some_iff (h : Owned n) {e : Endpoint} {q : Nat} :
    n.registry.queue? e = some q ↔ ∃ s own, n.slot s = .listening own q ∧ own.endpoint = e := by
  rw [Registry.queue?_eq_some_iff]
  constructor
  · exact h.exists_listener
  · rintro ⟨s, own, hs, rfl⟩
    exact h.registered (by rw [hs]; rfl)

/-- A bound socket gets a queue of its own. -/
theorem of_listen {s : Nat} {own : Descriptor} {backlog : UInt32} (h : Owned n)
    (hg : n.slots[s]? = some (.bound own)) :
    Owned { n with
      queues := n.queues ++ [Queue.ofBacklog backlog]
      registry := n.registry.put own.endpoint (some n.queues.length)
      slots := n.slots.set s (.listening own n.queues.length) } := by
  have hs : (n.slot s).holding? = some (own.endpoint, none) := by
    rw [slot_of_getElem? hg]; rfl
  have hm : (own.endpoint, none) ∈ n.registry := h.held.mem_iff.mpr (mem_holdings hs)
  have hk : own.endpoint ∈ n.registry.keys := List.mem_map.mpr ⟨_, hm, rfl⟩
  have hp := Registry.perm_put h.nodup hk (some n.queues.length)
  have he := Registry.perm_cons_erase h.nodup hm
  have hh := perm_filterMap_set Slot.holding? hg (.listening own n.queues.length)
  have hl := perm_filterMap_set Slot.queue? hg (.listening own n.queues.length)
  simp only [Slot.holding?, Slot.queue?, Option.toList, List.nil_append,
    List.singleton_append] at hh hl
  have hkeys : (n.registry.put own.endpoint (some n.queues.length)).keys.Perm n.registry.keys :=
    (hp.map Prod.fst).trans (he.map Prod.fst).symm
  constructor
  · exact h.counter
  · exact hkeys.nodup_iff.mpr h.nodup
  · -- beside the entry that was there, both sides are the new entry and what the others hold
    have hr := he.symm.trans h.held
    have hx := ((hp.cons _).trans (List.Perm.swap ..)).trans ((hr.cons _).trans hh.symm)
    exact hx.cons_inv
  · intro e hm
    exact h.named e (hkeys.mem_iff.mp hm)
  · rw [hl.nodup_iff, List.nodup_cons]
    refine ⟨?_, h.queues⟩
    intro hq
    obtain ⟨queue, hq, -⟩ := h.opened _ hq
    simp at hq
  · intro q hq
    rcases List.mem_cons.mp (hl.mem_iff.mp hq) with rfl | hq
    · exact ⟨Queue.ofBacklog backlog, by simp, rfl⟩
    · obtain ⟨queue, hq, hc⟩ := h.opened q hq
      refine ⟨queue, ?_, hc⟩
      show (n.queues ++ [Queue.ofBacklog backlog])[q]? = some queue
      rw [List.getElem?_append_left (List.getElem?_eq_some_iff.mp hq).1]
      exact hq

/-- A socket that is given up gives back what it owned. -/
theorem drop (h : Owned n) (s : Nat) : Owned (n.drop s) := by
  cases hg : n.slots[s]? with
  | none =>
    have hs : n.slot s = .closed := by simp [slot, hg]
    have hn : n.drop s = n := by simp [Network.drop, hs]
    exact hn.symm ▸ h
  | some t =>
    have hs := slot_of_getElem? hg
    have hh : (t.holding?.toList ++ (n.drop s).slots.filterMap Slot.holding?).Perm
        (n.slots.filterMap Slot.holding?) := drop_slots n s ▸ perm_filterMap_set _ hg .closed
    have hl : (t.queue?.toList ++ (n.drop s).slots.filterMap Slot.queue?).Perm
        (n.slots.filterMap Slot.queue?) := drop_slots n s ▸ perm_filterMap_set _ hg .closed
    have hnodup := hl.nodup_iff.mpr h.queues
    have hheld : (n.drop s).registry.Perm ((n.drop s).slots.filterMap Slot.holding?) := by
      rw [drop_registry, hs]
      cases ht : t.holding? with
      | none =>
        rw [ht] at hh
        exact h.held.trans hh.symm
      | some x =>
        obtain ⟨e, q⟩ := x
        rw [ht] at hh
        have hm : (e, q) ∈ n.registry := h.held.mem_iff.mpr (mem_holdings (hs ▸ ht))
        have he := Registry.perm_cons_erase h.nodup hm
        exact ((he.symm.trans h.held).trans hh.symm).cons_inv
    have hkeys : (n.drop s).registry.keys.Sublist n.registry.keys := by
      rw [drop_registry]
      split
      · exact List.filter_sublist.map _
      · exact List.Sublist.refl _
    constructor
    · rw [drop_counter]
      exact h.counter
    · exact hkeys.nodup h.nodup
    · exact hheld
    · intro e he
      exact h.named e (hkeys.subset he)
    · exact (List.nodup_append.mp hnodup).2.1
    · intro q hq
      obtain ⟨queue, ho, hc⟩ := h.opened q (hl.mem_iff.mp (List.mem_append_right _ hq))
      rw [drop_queues, hs]
      cases ht : t.queue? with
      | none => exact ⟨queue, ho, hc⟩
      | some k =>
        -- a queue still listened on is not the one that is closed, which was listened on once
        have hne : k ≠ q := by
          intro hk
          subst hk
          rw [ht] at hnodup
          exact (List.nodup_cons.mp hnodup).1 hq
        exact ⟨queue, (List.getElem?_modify_ne _ _ hne).trans ho, hc⟩

/-- Whatever happens, the registry lists what the sockets own. -/
theorem step {e : Event} (h : Owned n) (hc : Change n e n') : Owned n' := by
  cases hc with
  | failed q e => exact h
  | told _ => exact h
  | made => exact h.of_append rfl rfl rfl rfl (keepsOpen_of_eq rfl) rfl
  | bound hs hcid hp hf =>
    rename_i s a cid port m
    obtain ⟨-, ⟨-, ha⟩ | ⟨hn, rfl, rfl⟩⟩ := of_choosePort hp
    · obtain ⟨-, hnext, hport⟩ := of_allocate?_eq_some ha
      have hport := hport h.counter
      refine h.of_claim hf hport.2 rfl rfl (getElem?_of_slot hs (by simp)) rfl rfl rfl
        (keepsOpen_of_eq rfl) ?_
      exact hnext ▸ handedOut_nextPort hport
    · exact h.of_claim hf hn rfl rfl (getElem?_of_slot hs (by simp)) rfl rfl rfl
        (keepsOpen_of_eq rfl) h.counter
  | listening hs => exact h.of_listen (getElem?_of_slot hs (by simp))
  | accepted hs hq hp => exact h.of_append rfl rfl rfl rfl (keepsOpen_of_set rfl hq rfl) rfl
  | connected hs hr hq ht =>
    obtain ⟨-, -, ⟨rfl, rfl⟩ | ⟨rfl, port, ha, rfl, hreg⟩⟩ := of_route hr
    · exact h.of_set rfl rfl (getElem?_of_slot hs (by simp [Slot.ofCaller])) rfl rfl
        (keepsOpen_of_set rfl hq rfl) rfl
    · obtain ⟨hf, hnext, hport⟩ := of_allocate?_eq_some ha
      have hport := hport h.counter
      refine h.of_claim hf hport.2 hreg rfl (getElem?_of_slot hs (by simp [Slot.ofCaller])) rfl rfl
        rfl (keepsOpen_of_set rfl hq rfl) ?_
      exact hnext ▸ handedOut_nextPort hport
  | crowded hs hr hq =>
    obtain ⟨-, -, ⟨rfl, rfl⟩ | ⟨rfl, port, ha, rfl, -⟩⟩ := of_route hr
    · exact h
    · obtain ⟨-, hnext, hport⟩ := of_allocate?_eq_some ha
      exact h.of_eq rfl rfl rfl (hnext ▸ handedOut_nextPort (hport h.counter))
  | sent _ _ _ => exact h.of_eq rfl rfl rfl h.counter
  | received _ _ _ => exact h.of_eq rfl rfl rfl h.counter
  | shut _ => exact h.of_eq rfl rfl rfl h.counter
  | dropped s => exact h.drop s

end Owned

theorem owned_of_run {n n' : Network} {tr : List Moment} (h : Run n tr n') (ho : Owned n) :
    Owned n' := by
  induction h with
  | nil => exact ho
  | snoc _ hs ih => exact ih.step (change_of_step hs)

/-- A socket that has an address keeps it, and what it owns, until it is given up. -/
theorem own?_of_change {n n' : Network} {e : Event} {s : Nat} {d : Descriptor}
    (h : Change n e n') (hd : e ≠ .dropped s) (ho : (n.slot s).own? = some d) :
    (n'.slot s).own? = some d ∧
      (n'.slot s).holding?.map Prod.fst = (n.slot s).holding?.map Prod.fst := by
  have hl : s < n.slots.length := by
    refine lt_of_slot rfl ?_
    intro hc
    simp [hc, Slot.own?] at ho
  by_cases he : e.subject? = some s
  · cases h with
    | failed _ _ => exact ⟨ho, rfl⟩
    | told _ => exact ⟨ho, rfl⟩
    | made => simp [Event.subject?] at he
    | bound hs _ _ _ =>
      cases he
      simp [hs, Slot.own?] at ho
    | listening hs =>
      cases he
      rw [hs] at ho ⊢
      rw [slot_of_slots_set rfl hl, if_pos rfl]
      exact ⟨ho, rfl⟩
    | accepted _ _ _ =>
      rw [slot_of_slots_append rfl, if_neg (Nat.ne_of_lt hl)]
      exact ⟨ho, rfl⟩
    | connected hs hr _ _ =>
      cases he
      obtain ⟨-, -, ⟨rfl, -⟩ | ⟨rfl, -⟩⟩ := of_route hr
      · rw [hs] at ho ⊢
        rw [slot_of_slots_set rfl hl, if_pos rfl]
        exact ⟨ho, rfl⟩
      · simp [hs, Slot.ofCaller, Slot.own?] at ho
    | crowded _ _ _ => exact ⟨ho, rfl⟩
    | sent _ _ _ => exact ⟨ho, rfl⟩
    | received _ _ _ => exact ⟨ho, rfl⟩
    | shut _ => exact ⟨ho, rfl⟩
    | dropped k =>
      cases he
      exact absurd rfl hd
  · rw [slot_frame h hl he]
    exact ⟨ho, rfl⟩

theorem own?_of_run {n n' : Network} {tr : List Moment} {s : Nat} {d : Descriptor}
    (h : Run n tr n') (hd : ∀ m ∈ tr, m.2 ≠ .dropped s) (ho : (n.slot s).own? = some d) :
    (n'.slot s).own? = some d ∧
      (n'.slot s).holding?.map Prod.fst = (n.slot s).holding?.map Prod.fst := by
  induction h with
  | nil => exact ⟨ho, rfl⟩
  | snoc _ hs ih =>
    obtain ⟨h1, h2⟩ := ih fun m hm => hd m (List.mem_append_left _ hm)
    have hl := hd _ (List.mem_append_right _ (List.mem_singleton_self _))
    obtain ⟨h3, h4⟩ := own?_of_change (change_of_step hs) hl h1
    exact ⟨h3, h4.trans h2⟩

theorem localAddr_of_own? {n : Network} {s : Nat} {d : Descriptor}
    (h : (n.slot s).own? = some d) : n.localAddr s = some (.ok d, n) := by
  unfold localAddr
  cases ht : n.slot s <;> simp_all [Slot.own?]

theorem answer_of_localAddr {n n' : Network} {s : Nat} {d : Descriptor}
    {r : Except IoError Descriptor} (h : (n.slot s).own? = some d)
    (hr : n.localAddr s = some (r, n')) : r = .ok d := by
  rw [localAddr_of_own? h, Option.some.injEq, Prod.mk.injEq] at hr
  exact hr.1.symm

theorem own?_of_localAddr {n : Network} {s : Nat} {d : Descriptor} (hf : n.slot s ≠ .fresh)
    (h : n.localAddr s = some (.ok d, n)) : (n.slot s).own? = some d := by
  unfold localAddr at h
  cases ht : n.slot s <;> simp_all [Slot.own?]

/-- A socket owns the endpoint of its address. -/
theorem own?_of_holding? {t : Slot} {e : Endpoint} {q : Option Nat}
    (h : t.holding? = some (e, q)) : ∃ d, t.own? = some d ∧ d.endpoint = e := by
  unfold Slot.holding? at h
  split at h <;> simp_all [Slot.own?]

theorem slot_drop (n : Network) (s k : Nat) :
    (n.drop s).slot k = if k = s then .closed else n.slot k := by
  by_cases hs : s < n.slots.length
  · exact slot_of_slots_set (drop_slots n s) hs k
  · have hl : n.slots.set s .closed = n.slots :=
      List.set_eq_of_length_le (Nat.le_of_not_lt hs)
    have he : (n.drop s).slot k = n.slot k := by rw [slot, drop_slots, hl, slot]
    rw [he]
    split
    · rename_i h
      subst h
      rw [slot, List.getElem?_eq_none_iff.mpr (Nat.le_of_not_lt hs)]
      rfl
    · rfl

/-- Giving sockets up leaves the others as they are. -/
theorem slots_foldl_drop (ss : List Nat) (n : Network) (k : Nat) :
    (ss.foldl drop n).slot k = if k ∈ ss then .closed else n.slot k := by
  induction ss generalizing n with
  | nil => simp
  | cons s ss ih =>
    rw [List.foldl_cons, ih, slot_drop]
    by_cases h1 : k ∈ ss <;> by_cases h2 : k = s <;> simp [h1, h2]

theorem owned_foldl_drop (ss : List Nat) {n : Network} (h : Owned n) : Owned (ss.foldl drop n) := by
  induction ss generalizing n with
  | nil => exact h
  | cons s ss ih => exact ih (h.drop s)

/-- With every socket given up no endpoint is in use. -/
theorem boundEndpoints_of_closed {n : Network} (h : Owned n) (hc : ∀ s, n.slot s = .closed) :
    n.boundEndpoints = 0 := by
  have hn : n.slots.filterMap Slot.holding? = [] := by
    rw [List.filterMap_eq_nil_iff]
    intro t ht
    obtain ⟨s, hs⟩ := List.mem_iff_getElem?.mp ht
    have hs := (slot_of_getElem? hs).symm.trans (hc s)
    rw [hs]
    rfl
  have hp := h.held
  rw [hn] at hp
  exact hp.length_eq

theorem boundEndpoints_eq {n : Network} (h : Owned n) :
    n.boundEndpoints = (n.slots.filter fun t => t.holding?.isSome).length := by
  have hl (l : List Slot) : (l.filterMap Slot.holding?).length =
      (l.filter fun t => t.holding?.isSome).length := by
    induction l with
    | nil => rfl
    | cons t l ih =>
      cases ht : t.holding? <;> simp [ht, ih]
  exact h.held.length_eq.trans (hl n.slots)

/-- What the registry of a network says of its sockets: its keys are the endpoints of the sockets
that are bound, listen, or asked for their connection, one key for one socket, and a key has a queue
exactly when its owner listens on it. An owner keeps its endpoint until it is given up, and nothing
else does. -/
structure Registers (n : Network) : Prop where
  holder : ∀ s e q, (n.slot s).holding? = some (e, q) → n.registry.get? e = some q ∧
    ∃ d, n.localAddr s = some (.ok d, n) ∧ d.endpoint = e
  held : ∀ e q, n.registry.get? e = some q → ∃ s, (n.slot s).holding? = some (e, q) ∧
    ∀ t q', (n.slot t).holding? = some (e, q') → t = s
  serves : ∀ e q, n.registry.get? e = some (some q) ↔
    ∃ s own, n.slot s = .listening own q ∧ own.endpoint = e
  queue : ∀ s own q, n.slot s = .listening own q →
    (∃ queue, n.queues[q]? = some queue ∧ queue.closed = false) ∧
    ∀ t own', n.slot t = .listening own' q → t = s
  accepted : ∀ s own c, n.slot s = .connected own c .callee → (n.drop s).registry = n.registry
  named : ∀ e, n.registry.has e = true → e.port ≠ anyPort
  count : n.boundEndpoints = (n.slots.filter fun t => t.holding?.isSome).length
  kept : ∀ tr' n' s d, Run n tr' n' → (∀ m ∈ tr', m.2 ≠ .dropped s) → n.slot s ≠ .fresh →
    n.localAddr s = some (.ok d, n) → n'.localAddr s = some (.ok d, n') ∧
    ∀ e q, (n.slot s).holding? = some (e, q) →
      ∃ q', (n'.slot s).holding? = some (e, q') ∧ n'.registry.get? e = some q'
  released : ∀ ss : List Nat, (∀ s < n.slots.length, s ∈ ss) →
    (ss.foldl drop n).boundEndpoints = 0

/-- After every run the registry and the sockets say the same. -/
theorem registry_of_run {cid : UInt32} {tr : List Moment} {n : Network}
    (h : Run (ofCid cid) tr n) : Registers n := by
  have ho : Owned n := owned_of_run h (owned_ofCid cid)
  constructor
  case holder =>
    intro s e q hs
    obtain ⟨d, hd, he⟩ := own?_of_holding? hs
    exact ⟨ho.registered hs, d, localAddr_of_own? hd, he⟩
  case held =>
    intro e q he
    obtain ⟨s, hs⟩ := ho.exists_owner he
    exact ⟨s, hs, fun t q' ht => ho.owner_unique ht hs⟩
  case serves =>
    intro e q
    constructor
    · exact ho.exists_listener
    · rintro ⟨s, own, hs, rfl⟩
      exact ho.registered (by rw [hs]; rfl)
  case queue =>
    intro s own q hs
    exact ⟨ho.open_queue hs, fun t own' ht => ho.listener_unique ht hs⟩
  case accepted =>
    intro s own c hs
    rw [drop_registry, hs]
    rfl
  case named =>
    intro e he
    exact ho.named e ((Registry.has_iff _ _).mp he)
  case count => exact boundEndpoints_eq ho
  case kept =>
    intro tr' n' s d hr hd hf hs
    obtain ⟨h1, h2⟩ := own?_of_run hr hd (own?_of_localAddr hf hs)
    refine ⟨localAddr_of_own? h1, ?_⟩
    intro e q hq
    rw [hq] at h2
    obtain ⟨⟨e', q'⟩, hh, he⟩ := Option.map_eq_some_iff.mp h2
    cases he
    exact ⟨q', hh, (owned_of_run hr ho).registered hh⟩
  case released =>
    intro ss hss
    refine boundEndpoints_of_closed (owned_foldl_drop ss ho) ?_
    intro s
    rw [slots_foldl_drop]
    split
    · rfl
    · rename_i hs
      by_cases hl : s < n.slots.length
      · exact absurd (hss s hl) hs
      · rw [slot, List.getElem?_eq_none_iff.mpr (Nat.le_of_not_lt hl)]
        rfl

/-- A listener, a caller and the accepted end: two endpoints are in use, and giving up the accepted
end releases neither. -/
theorem registry_of_accepting_run :
    ∃ n : Network, (∃ tr, Run (ofCid 3) tr n) ∧
      n.registry = [(⟨3, 40000⟩, some 0), (⟨3, 40001⟩, none)] ∧
      n.slot 2 = .connected (Descriptor.local 3 40000) 0 .callee ∧
      (n.drop 2).registry = n.registry ∧ n.boundEndpoints = 2 := by
  have h := Run.nil (n := ofCid 3)
    |>.snoc (.call (q := .socket) rfl)
    |>.snoc (.call (q := .bind 0 (Descriptor.bind anyCid anyPort)) rfl)
    |>.snoc (.call (q := .listen 0 0) rfl)
    |>.snoc (.call (q := .socket) rfl)
    |>.snoc (.call (q := .connect 1 (Descriptor.remote 3 40000)) rfl)
    |>.snoc (.call (q := .accept 0) rfl)
  exact ⟨_, ⟨_, h⟩, rfl, rfl, (registry_of_run h).accepted 2 _ _ rfl, rfl⟩

end Network
end Handoff.Loopback
