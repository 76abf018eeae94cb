import Handoff.Proofs.Loopback.Attended
import Handoff.Proofs.Loopback.Sections

/-!
What a step of a race does to the network, be it a call made of one section or a section of a longer
one: how a call under way finds the network, what grows and what stays closed, and what becomes of
queues, of ends and of those who wait.
-/
namespace Handoff.Loopback

/-- How a call that is under way finds its socket, its queue and its end. -/
def Call.Fits (n : Network) (s : Nat) : Call → Prop
  | joining bound own target q => n.slot s = Slot.ofCaller bound ∧ (∀ b, bound = some b → b = own) ∧
    q < n.queues.length ∧ ∀ t d, n.slot t = .listening d q → d.endpoint = target.endpoint
  | refused _ => n.slot s = .fresh
  | hanging _ c side => n.slot s = .closed ∧ s < n.slots.length ∧ c < n.connections.length ∧
    (n.pipe c side.other).writeClosed = true
  | leaving _ q => n.slot s = .closed ∧ s < n.slots.length ∧
    ∀ k, q = some k → k < n.queues.length ∧ ∀ t d, n.slot t ≠ .listening d k

namespace Network

variable {n n' : Network} {e : Event} {s : Nat}

/-- What a step does to a pipe. Nobody sends into it but who holds the end on its other side. -/
def Flows (n n' : Network) (c : Nat) (side : Side) : Prop :=
  ∃ sent received reading writing,
    (n.pipe c side).Move sent received reading writing (n'.pipe c side) ∧
      (sent ≠ [] → ∃ t, (n.slot t).end? = some (c, side.other))

theorem flows_of_eq {c : Nat} {side : Side} (h : n'.pipe c side = n.pipe c side) :
    Flows n n' c side :=
  ⟨[], [], false, false, by rw [h]; exact .idle _, fun hn => absurd rfl hn⟩

theorem flows_of_closing {c : Nat} {side : Side} {reading writing : Bool}
    (h : n'.pipe c side = (n.pipe c side).closing reading writing) : Flows n n' c side :=
  ⟨[], [], reading, writing, by rw [h]; exact .close _ _, fun hn => absurd rfl hn⟩

theorem flows_of_change (hw : Wired n) (h : Change n e n') (c : Nat) (side : Side) :
    Flows n n' c side := by
  refine ⟨_, _, _, _, move_of_change hw h c side, ?_⟩
  intro hsent
  cases e with
  | dropped s => exact absurd rfl hsent
  | answered q r =>
    cases q with
    | send s data =>
      cases r with
      | error e => exact absurd rfl hsent
      | ok k =>
        refine ⟨s, ?_⟩
        by_contra hn
        simp [Moment.sentTo, hn] at hsent
    | socket | bind | listen | accept | connect | recv | shutdown | localAddr =>
      exact absurd rfl hsent

namespace Flows

variable {c : Nat} {side : Side}

theorem spent (h : Flows n n' c side) (hs : (n.pipe c side).Spent) : (n'.pipe c side).Spent := by
  obtain ⟨_, _, _, _, hm, -⟩ := h
  exact hs.move hm

theorem writeClosed (h : Flows n n' c side) (hc : (n.pipe c side).writeClosed = true) :
    (n'.pipe c side).writeClosed = true := by
  obtain ⟨_, _, _, _, hm, -⟩ := h
  exact hm.writeClosed hc

theorem readClosed (h : Flows n n' c side) (hc : (n.pipe c side).readClosed = true) :
    (n'.pipe c side).readClosed = true := by
  obtain ⟨_, _, _, _, hm, -⟩ := h
  exact hm.readClosed hc

/-- A pipe stays empty while nobody holds the end that is sent from. -/
theorem buffer_eq_nil (h : Flows n n' c side) (hb : (n.pipe c side).buffer = [])
    (hn : ∀ t, (n.slot t).end? ≠ some (c, side.other)) : (n'.pipe c side).buffer = [] := by
  obtain ⟨sent, _, _, _, hm, hs⟩ := h
  refine hm.buffer_eq_nil hb ?_
  by_contra hsent
  obtain ⟨t, ht⟩ := hs hsent
  exact hn t ht

end Flows

theorem pipe_of_connections (h : n'.connections = n.connections) (c : Nat) (side : Side) :
    n'.pipe c side = n.pipe c side := by
  rw [pipe, connection, h, pipe, connection]

theorem flows_of_section {call : Option Call} {p : Progress} (hw : Wired n)
    (h : Section n s call p n') (hf : ∀ k, call = some k → k.Fits n s) (c : Nat) (side : Side) :
    Flows n n' c side := by
  cases h with
  | rejected | turnedAway | refused | left => exact flows_of_eq (pipe_of_connections rfl c side)
  | routed _ hr =>
    have hm := (of_route hr).2.1
    exact flows_of_eq (pipe_of_connections (by rw [hm]) c side)
  | joined =>
    refine flows_of_eq ?_
    rw [pipe, connection_append rfl, pipe]
  | dropped hs he =>
    refine flows_of_eq (pipe_of_connections ?_ c side)
    rw [drop_connections]
    cases hx : n.slot s with
    | listening own q => simp [hx, Slot.queue?] at hs
    | connected own c side => simp [hx, Slot.end?] at he
    | fresh | bound own | closed => rfl
  | @deserted own q hs =>
    have hmade (p : Pending) (hp : p ∈ n.waitingIn q) : p.connection < n.connections.length :=
      hw.made _ (mem_ends_iff.mpr (.inr ⟨q, p, hp, rfl⟩))
    refine flows_of_closing (pipe_orphan ?_ hmade c side)
    rw [closeQueue_eq]
    rfl
  | hungUp hs =>
    have hl := hw.made _ (mem_ends_of_slot (end?_of_slot hs))
    exact flows_of_closing (pipe_shut rfl hl c side)
  | deafened own c₀ side₀ => exact flows_of_closing (pipe_shut rfl (hf _ rfl).2.2.1 c side)

/-- A section leaves all slots as they are, but for that of its own socket. -/
theorem slots_of_section {call : Option Call} {p : Progress} (h : Section n s call p n') :
    n'.slots = n.slots ∨ ∃ t, n'.slots = n.slots.set s t ∧ t.queue? = none := by
  cases h with
  | rejected | turnedAway | refused | left | deafened => exact .inl rfl
  | routed _ hr => exact .inl (by rw [(of_route hr).2.1])
  | joined => exact .inr ⟨_, rfl, rfl⟩
  | dropped => exact .inr ⟨.closed, drop_slots n s, rfl⟩
  | deserted hs =>
    refine .inr ⟨.closed, ?_, rfl⟩
    rw [closeQueue_eq]
    rfl
  | hungUp hs => exact .inr ⟨.closed, rfl, rfl⟩

theorem slot_of_set_cases {t : Slot} (h : n'.slots = n.slots.set s t) (k : Nat) :
    n'.slot k = n.slot k ∨ k = s ∧ n'.slot k = t := by
  by_cases hs : s < n.slots.length
  · rw [slot_of_slots_set h hs]
    split
    · exact .inr ⟨‹_›, rfl⟩
    · exact .inl rfl
  · rw [List.set_eq_of_length_le (Nat.le_of_not_lt hs)] at h
    exact .inl (by rw [slot, slot, h])

theorem slot_frame_section {call : Option Call} {p : Progress} (h : Section n s call p n') {k : Nat}
    (hk : k ≠ s) : n'.slot k = n.slot k := by
  rcases slots_of_section h with h | ⟨t, h, -⟩
  · rw [slot, slot, h]
  · exact (slot_of_set_cases h k).resolve_right fun hx => hk hx.1

/-- What grows with every step. -/
structure Onward (n n' : Network) : Prop where
  slots : n.slots.length ≤ n'.slots.length
  queues : n.queues.length ≤ n'.queues.length
  connections : n.connections.length ≤ n'.connections.length
  listeners : ∀ k own q, n'.slot k = .listening own q →
    n.slot k = .listening own q ∨ q = n.queues.length
  pipes : ∀ c side, Flows n n' c side

theorem onward_of_change (hw : Wired n) (h : Change n e n') : Onward n n' := by
  constructor
  · exact length_slots_le h
  · cases h with
    | failed | told | made | bound | crowded | sent | received | shut => exact Nat.le_refl _
    | listening => simp
    | accepted => simp
    | connected => simp
    | dropped s =>
      rw [drop_queues]
      split <;> simp
  · exact length_connections_le h
  · intro k own q hk
    have hset {m : Network} {t : Slot} {s : Nat} (hm : m.slots = n.slots.set s t)
        (ht : t.queue? = none) (hk : m.slot k = .listening own q) :
        n.slot k = .listening own q := by
      rcases slot_of_set_cases hm k with hx | ⟨-, hx⟩
      · exact hx.symm.trans hk
      · rw [← hx, hk] at ht
        simp [Slot.queue?] at ht
    have happend {m : Network} {t : Slot} (hm : m.slots = n.slots ++ [t]) (ht : t.queue? = none)
        (hk : m.slot k = .listening own q) : n.slot k = .listening own q := by
      rw [slot_of_slots_append hm] at hk
      split at hk
      · rw [hk] at ht
        simp [Slot.queue?] at ht
      · exact hk
    cases h with
    | failed | told | crowded | sent | received | shut => exact .inl hk
    | made => exact .inl (happend rfl rfl hk)
    | bound => exact .inl (hset rfl rfl hk)
    | listening hs =>
      rw [slot_of_slots_set rfl (lt_of_slot hs (by simp))] at hk
      split at hk
      · cases hk
        exact .inr rfl
      · exact .inl hk
    | accepted => exact .inl (happend rfl rfl hk)
    | connected => exact .inl (hset rfl rfl hk)
    | dropped s => exact .inl (hset (drop_slots n s) rfl hk)
  · exact flows_of_change hw h

theorem onward_of_section {call : Option Call} {p : Progress} (hw : Wired n)
    (h : Section n s call p n') (hf : ∀ k, call = some k → k.Fits n s) : Onward n n' := by
  constructor
  · rcases slots_of_section h with h | ⟨t, h, -⟩
    · exact Nat.le_of_eq (by rw [h])
    · exact Nat.le_of_eq (by rw [h, List.length_set])
  · cases h with
    | rejected | turnedAway | refused | left | deafened | hungUp => exact Nat.le_refl _
    | routed _ hr => exact Nat.le_of_eq (by rw [(of_route hr).2.1])
    | joined => simp
    | dropped hs he => exact Nat.le_of_eq (by rw [drop_queues, hs])
    | deserted hs =>
      rw [closeQueue_eq]
      simp [setSlot]
  · cases h with
    | rejected | turnedAway | refused | left => exact Nat.le_refl _
    | routed _ hr => exact Nat.le_of_eq (by rw [(of_route hr).2.1])
    | joined => simp
    | dropped hs he => exact Nat.le_of_eq (by rw [drop_connections, length_severed])
    | deserted hs =>
      rw [closeQueue_eq]
      simp [setSlot]
    | deafened => simp [modifyConnection]
    | hungUp => simp [modifyConnection, setSlot]
  · intro k own q hk
    refine .inl ?_
    rcases slots_of_section h with h | ⟨t, h, ht⟩
    · rwa [slot, h] at hk
    · rcases slot_of_set_cases h k with hx | ⟨-, hx⟩
      · exact hx.symm.trans hk
      · rw [← hx, hk] at ht
        simp [Slot.queue?] at ht
  · exact flows_of_section hw h hf

/-- A call of a socket that a step leaves alone finds all as it was. -/
theorem fits_frame {call : Call} (h : call.Fits n s) (ho : Onward n n')
    (hs : n'.slot s = n.slot s) : call.Fits n' s := by
  cases call with
  | joining bound own target q =>
    obtain ⟨h1, h2, h3, h4⟩ := h
    refine ⟨hs.trans h1, h2, Nat.lt_of_lt_of_le h3 ho.queues, ?_⟩
    intro t d ht
    rcases ho.listeners t d q ht with hx | rfl
    · exact h4 t d hx
    · exact absurd h3 (Nat.lt_irrefl _)
  | refused own => exact hs.trans h
  | hanging own c side =>
    obtain ⟨h1, h2, h3, h4⟩ := h
    exact ⟨hs.trans h1, Nat.lt_of_lt_of_le h2 ho.slots, Nat.lt_of_lt_of_le h3 ho.connections,
      (ho.pipes c side.other).writeClosed h4⟩
  | leaving own q =>
    obtain ⟨h1, h2, h3⟩ := h
    refine ⟨hs.trans h1, Nat.lt_of_lt_of_le h2 ho.slots, ?_⟩
    intro k hk
    obtain ⟨hlt, hn⟩ := h3 k hk
    refine ⟨Nat.lt_of_lt_of_le hlt ho.queues, ?_⟩
    intro t d ht
    rcases ho.listeners t d k ht with hx | rfl
    · exact hn t d hx
    · exact Nat.lt_irrefl _ hlt

/-! ### What a call made of one section keeps -/

theorem attended_of_change (h : Attended n) (hc : Change n e n') (he : e.atOnce = true) :
    Attended n' := by
  cases hc with
  | failed | told | sent | received | shut => exact h.of_same (fun _ => rfl) (.inl rfl)
  | made => exact h.of_same (slot_map_of_append Slot.queue? rfl rfl) (.inl rfl)
  | bound hs =>
    refine h.of_same (slot_map_of_set Slot.queue? rfl ?_) (.inl rfl)
    rw [hs]
    rfl
  | listening hs =>
    exact h.listen (lt_of_slot hs (by simp)) (by rw [hs]; rfl) rfl rfl rfl
  | @accepted s own q queue p rest hs hq _ =>
    obtain ⟨queue', hq', hopen⟩ := h.opened s q (by rw [hs]; rfl)
    cases hq.symm.trans hq'
    exact h.of_same (slot_map_of_append Slot.queue? rfl rfl) (.inr ⟨_, _, _, hq, hopen, rfl, hopen⟩)
  | connected | crowded | dropped => simp [Event.atOnce] at he

/-! ### What a section keeps -/

theorem attended_of_section {call : Option Call} {p : Progress} (h : Attended n)
    (hs : Section n s call p n') (hf : ∀ k, call = some k → k.Fits n s) : Attended n' := by
  cases hs with
  | rejected | turnedAway | refused | left | deafened =>
    exact h.of_same (fun _ => rfl) (.inl rfl)
  | routed _ hr =>
    have hm := (of_route hr).2.1
    exact h.of_same (fun _ => by rw [hm]; rfl) (.inl (by rw [hm]))
  | @joined bound own target q queue hq ht =>
    have hslot : n.slot s = Slot.ofCaller bound := (hf _ rfl).1
    simp only [Queue.takes, Bool.and_eq_true, Bool.not_eq_true'] at ht
    refine h.of_same (slot_map_of_set Slot.queue? rfl ?_) (.inr ⟨_, _, _, hq, ht.1, rfl, ht.1⟩)
    rw [hslot]
    cases bound <;> rfl
  | dropped hq he =>
    refine h.of_same (slot_map_of_set Slot.queue? (drop_slots n s) hq.symm) (.inl ?_)
    rw [drop_queues, hq]
  | deserted hs =>
    refine h.desert hs ?_ ?_
    · rw [closeQueue_eq]
      rfl
    · rw [closeQueue_eq]
      rfl
  | hungUp hs =>
    refine h.of_same (slot_map_of_set Slot.queue? rfl ?_) (.inl rfl)
    rw [hs]
    rfl

theorem ends_congr (hs : n'.slots = n.slots) (hq : n'.queues = n.queues) : n'.ends = n.ends := by
  rw [ends, ends, hs, hq]

/-- The accepted ends that wait with a listener are closed when it goes. -/
theorem closed_of_deserted {own : Descriptor} {q c : Nat} {side : Side} (hw : Wired n)
    (hs : n.slot s = .listening own q) (hy : n.yields s c side = true) :
    (((n.closeQueue q).setSlot s .closed).pipe c side.other).writeClosed = true ∧
      (((n.closeQueue q).setSlot s .closed).pipe c side).readClosed = true := by
  have hl : ∀ p ∈ n.waitingIn q, p.connection < n.connections.length :=
    fun p hp => hw.made _ (mem_ends_iff.mpr (.inr ⟨q, p, hp, rfl⟩))
  have hc : ((n.closeQueue q).setSlot s .closed).connections =
      orphan n.connections (n.waitingIn q) := by
    rw [closeQueue_eq]
    rfl
  have hx : side = .callee ∧ ∃ p ∈ n.waitingIn q, p.connection = c := by
    simpa [yields, hs] using hy
  constructor
  · rw [pipe_orphan hc hl, other_other]
    simp [Pipe.closing, hx]
  · rw [pipe_orphan hc hl]
    simp [Pipe.closing, hx]

/-- A section keeps the ends that are held, adds the two of a new connection, or gives up what its
socket holds. An end that is given up is closed, or its call has still to stop reading. -/
theorem ends_of_section {call : Option Call} {p : Progress} (hw : Wired n)
    (h : Section n s call p n') (hf : ∀ k, call = some k → k.Fits n s) :
    n'.ends = n.ends ∧ n'.connections.length = n.connections.length ∨
    n'.ends.Perm ((n.connections.length, .caller) :: (n.connections.length, .callee) :: n.ends) ∧
      n'.connections.length = n.connections.length + 1 ∨
    n'.ends = (n.drop s).ends ∧ n'.connections.length = n.connections.length ∧
      ∀ c side, n.yields s c side = true → (n'.pipe c side.other).writeClosed = true ∧
        ((n'.pipe c side).readClosed = true ∨ ∃ own, p = .left (.hanging own c side)) := by
  cases h with
  | rejected | turnedAway | refused | left => exact .inl ⟨rfl, rfl⟩
  | deafened => exact .inl ⟨rfl, by simp [modifyConnection]⟩
  | routed _ hr =>
    have hm := (of_route hr).2.1
    exact .inl ⟨ends_congr (by rw [hm]) (by rw [hm]), by rw [hm]⟩
  | joined hq ht => exact .inr (.inl ⟨ends_of_connected _ (hf _ rfl).1 hq rfl, by simp⟩)
  | dropped hs he =>
    refine .inr (.inr ⟨rfl, by rw [drop_connections, length_severed], ?_⟩)
    intro c side hy
    simp [yields_iff, hs, he] at hy
  | deserted hs =>
    refine .inr (.inr ⟨ends_congr ?_ ?_, ?_, ?_⟩)
    · rw [closeQueue_eq, drop_slots]
      rfl
    · rw [closeQueue_eq, drop_queues, hs]
      rfl
    · rw [closeQueue_eq]
      simp [setSlot]
    · intro c side hy
      exact (closed_of_deserted hw hs hy).imp_right .inl
  | @hungUp own c₀ side₀ hs =>
    refine .inr (.inr ⟨ends_congr ?_ ?_, ?_, ?_⟩)
    · rw [drop_slots]
      rfl
    · rw [drop_queues, hs]
      rfl
    · simp [modifyConnection, setSlot]
    · intro c side hy
      obtain ⟨rfl, rfl⟩ : c₀ = c ∧ side₀ = side := by simpa [yields, hs] using hy
      have hl := hw.made _ (mem_ends_of_slot (end?_of_slot hs))
      refine ⟨?_, .inr ⟨own, rfl⟩⟩
      rw [pipe_shut rfl hl, other_other]
      simp [Pipe.closing]

theorem wired_of_section {call : Option Call} {p : Progress} (hw : Wired n)
    (h : Section n s call p n') (hf : ∀ k, call = some k → k.Fits n s) : Wired n' := by
  rcases ends_of_section hw h hf with ⟨he, hl⟩ | ⟨hp, hl⟩ | ⟨he, hl, -⟩
  · exact hw.of_perm (List.Perm.of_eq he) hl
  · exact hw.of_new hp hl
  · refine (hw.drop s).of_perm (List.Perm.of_eq he) ?_
    rw [hl, drop_connections, length_severed]

theorem mem_ends_drop {x : Nat × Side} (h : x ∈ n.ends) :
    x ∈ (n.drop s).ends ∨ n.yields s x.1 x.2 = true := by
  rcases mem_ends_iff.mp h with ⟨t, ht⟩ | ⟨q, p, hp, rfl⟩
  · by_cases hts : t = s
    · subst hts
      exact .inr (yields_iff.mpr (.inl ht))
    · refine .inl (mem_ends_iff.mpr (.inl ⟨t, ?_⟩))
      rwa [slot_drop, if_neg hts]
  · by_cases hq : (n.slot s).queue? = some q
    · exact .inr (yields_iff.mpr (.inr ⟨rfl, q, hq, p, hp, rfl⟩))
    · refine .inl (mem_ends_iff.mpr (.inr ⟨q, p, ?_, rfl⟩))
      rwa [waitingIn_drop, if_neg hq]

/-! ### Who waits -/

theorem mem_waitingIn_of_set {k q : Nat} {p : Pending} {queue queue' : Queue}
    (hk : n.queues[k]? = some queue) (hm : n'.queues = n.queues.set k queue')
    (hp : p ∈ n'.waitingIn q) : p ∈ n.waitingIn q ∨ q = k ∧ p ∈ queue'.pending := by
  by_cases hq : k = q
  · subst hq
    rw [waitingIn, hm, List.getElem?_set_self (List.getElem?_eq_some_iff.mp hk).1] at hp
    exact .inr ⟨rfl, hp⟩
  · have hw : n'.waitingIn q = n.waitingIn q :=
      waitingIn_of_queues (by rw [hm, List.getElem?_set_ne hq])
    exact .inl (hw ▸ hp)

theorem mem_waitingIn_of_drop {q : Nat} {p : Pending} (hp : p ∈ (n.drop s).waitingIn q) :
    p ∈ n.waitingIn q := by
  rw [waitingIn_drop] at hp
  split at hp
  · simp at hp
  · exact hp

/-- Whoever waits waited before, or has come with a new connection. -/
theorem mem_waitingIn_of_change {q : Nat} {p : Pending} (h : Change n e n')
    (hp : p ∈ n'.waitingIn q) : p ∈ n.waitingIn q ∨ p.connection = n.connections.length := by
  cases h with
  | failed | told | made | bound | crowded | sent | received | shut => exact .inl hp
  | listening =>
    by_cases hq : q < n.queues.length
    · rw [waitingIn_of_queues (List.getElem?_append_left hq)] at hp
      exact .inl hp
    · rw [waitingIn, List.getElem?_append_right (Nat.le_of_not_lt hq)] at hp
      cases hx : q - n.queues.length <;> simp [hx, Queue.ofBacklog] at hp
  | accepted _ hq hpend =>
    rcases mem_waitingIn_of_set hq rfl hp with hx | ⟨rfl, hx⟩
    · exact .inl hx
    · rw [waitingIn_of_getElem? hq, hpend]
      exact .inl (List.mem_cons_of_mem _ hx)
  | connected _ _ hq _ =>
    rcases mem_waitingIn_of_set hq rfl hp with hx | ⟨rfl, hx⟩
    · exact .inl hx
    · rw [waitingIn_of_getElem? hq]
      rcases List.mem_append.mp hx with hx | hx
      · exact .inl hx
      · rw [List.mem_singleton.mp hx]
        exact .inr rfl
  | dropped s => exact .inl (mem_waitingIn_of_drop hp)

theorem mem_waitingIn_of_section {call : Option Call} {pr : Progress} {q : Nat} {p : Pending}
    (h : Section n s call pr n') (hp : p ∈ n'.waitingIn q) :
    p ∈ n.waitingIn q ∨ p.connection = n.connections.length := by
  cases h with
  | rejected | turnedAway | refused | left | deafened | hungUp => exact .inl hp
  | routed _ hr =>
    rw [waitingIn_of_queues (by rw [(of_route hr).2.1])] at hp
    exact .inl hp
  | joined hq _ =>
    rcases mem_waitingIn_of_set hq rfl hp with hx | ⟨rfl, hx⟩
    · exact .inl hx
    · rw [waitingIn_of_getElem? hq]
      rcases List.mem_append.mp hx with hx | hx
      · exact .inl hx
      · rw [List.mem_singleton.mp hx]
        exact .inr rfl
  | dropped => exact .inl (mem_waitingIn_of_drop hp)
  | @deserted own k hs =>
    have hqueues : ((n.closeQueue k).setSlot s .closed).queues = (n.drop s).queues := by
      rw [closeQueue_eq, drop_queues, hs]
      rfl
    rw [waitingIn_of_queues (n := n.drop s) (q := q) (by rw [hqueues])] at hp
    exact .inl (mem_waitingIn_of_drop hp)

end Network

end Handoff.Loopback
