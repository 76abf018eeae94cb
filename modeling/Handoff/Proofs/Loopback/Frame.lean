import Handoff.Proofs.Loopback.Ownership
import Handoff.Proofs.Loopback.Ports
import Handoff.Proofs.Loopback.Stream

/-!
What an operation leaves alone. Only those who hold an end of a connection do anything to its pipes,
and only callers and the listener itself do anything to the queue of a listener.
-/
namespace Handoff.Loopback.Network

variable {n n' : Network} {e : Event} {c : Nat} {side : Side}

theorem length_slots_le (h : Change n e n') : n.slots.length ≤ n'.slots.length := by
  cases h with
  | failed _ _ => exact Nat.le_refl _
  | told _ => exact Nat.le_refl _
  | made => simp
  | bound _ _ _ _ => simp
  | listening _ => simp
  | accepted _ _ _ => simp
  | connected _ _ _ _ => simp
  | crowded _ _ _ => exact Nat.le_refl _
  | sent _ _ _ => exact Nat.le_refl _
  | received _ _ _ => exact Nat.le_refl _
  | shut _ => exact Nat.le_refl _
  | dropped s => simp [drop_slots]

theorem length_connections_le (h : Change n e n') :
    n.connections.length ≤ n'.connections.length := by
  by_cases hd : ∀ s, e ≠ .dropped s
  · rcases ends_of_change h hd with ⟨-, hl⟩ | ⟨-, hl⟩ <;> omega
  · simp only [not_forall, not_not] at hd
    obtain ⟨s, rfl⟩ := hd
    cases h
    exact Nat.le_of_eq (by rw [drop_connections, length_severed])

theorem length_connections_of_change (h : Change n e n') (hc : e.connects? = none) :
    n'.connections.length = n.connections.length := by
  cases h with
  | failed | told | made | bound | listening | accepted | crowded => rfl
  | connected => simp [Event.connects?] at hc
  | sent => simp
  | received => simp
  | shut => simp [modifyConnection]
  | dropped s => rw [drop_connections, length_severed]

theorem alive_of_change {s : Nat} (h : Change n e n') (hs : n'.slot s ≠ .closed) :
    (n.slot s ≠ .closed ∨ e.makes? = some s) ∧ e ≠ .dropped s := by
  have hset {m : Network} {k : Nat} {t t' : Slot} (hm : m.slots = n.slots.set k t')
      (hk : n.slot k = t) (ht : t ≠ .closed) (hx : m.slot s ≠ .closed) : n.slot s ≠ .closed := by
    rw [slot_of_slots_set hm (lt_of_slot hk ht)] at hx
    by_cases hsk : s = k
    · rw [hsk, hk]
      exact ht
    · rwa [if_neg hsk] at hx
  have happend {m : Network} {t : Slot} (hm : m.slots = n.slots ++ [t])
      (hx : m.slot s ≠ .closed) : n.slot s ≠ .closed ∨ some n.slots.length = some s := by
    rw [slot_of_slots_append hm] at hx
    by_cases hsk : s = n.slots.length
    · exact .inr (congrArg some hsk.symm)
    · rw [if_neg hsk] at hx
      exact .inl hx
  cases h with
  | failed _ _ => exact ⟨.inl hs, by simp⟩
  | told _ => exact ⟨.inl hs, by simp⟩
  | made => exact ⟨happend rfl hs, by simp⟩
  | bound hk _ _ _ => exact ⟨.inl (hset rfl hk (by simp) hs), by simp⟩
  | listening hk => exact ⟨.inl (hset rfl hk (by simp) hs), by simp⟩
  | accepted _ _ _ => exact ⟨happend rfl hs, by simp⟩
  | connected hk _ _ _ => exact ⟨.inl (hset rfl hk (Slot.ofCaller_ne_closed _) hs), by simp⟩
  | crowded _ _ _ => exact ⟨.inl hs, by simp⟩
  | sent _ _ _ => exact ⟨.inl hs, by simp⟩
  | received _ _ _ => exact ⟨.inl hs, by simp⟩
  | shut _ => exact ⟨.inl hs, by simp⟩
  | dropped k =>
    rw [slot_drop] at hs
    by_cases hk : s = k
    · rw [if_pos hk] at hs
      exact absurd rfl hs
    · rw [if_neg hk] at hs
      exact ⟨.inl hs, by simpa using Ne.symm hk⟩

/-- A moment in which nothing is done at an end of a connection. -/
structure Quiet (c : Nat) (side : Side) (m : Moment) : Prop where
  received : m.receivedAt c side = []
  reading : m.stopsReading c side = false
  sent : m.sentTo c side.other = []
  writing : m.stopsWriting c side = false

theorem quiet_of (h : ∀ s, e.subject? = some s → (n.slot s).end? ≠ some (c, side))
    (hd : ∀ s, e = .dropped s → n.yields s c side = false) : Quiet c side (n, e) := by
  cases e with
  | dropped s => exact ⟨rfl, hd s rfl, rfl, hd s rfl⟩
  | answered q r =>
    cases q with
    | send s data =>
      have hs := h s rfl
      constructor
      · rfl
      · rfl
      · cases r <;> simp [Moment.sentTo, other_other, hs]
      · rfl
    | recv s room =>
      have hs := h s rfl
      constructor
      · cases r <;> simp [Moment.receivedAt, hs]
      · rfl
      · rfl
      · rfl
    | shutdown s how =>
      have hs := h s rfl
      constructor
      · rfl
      · cases r <;> simp [Moment.stopsReading, hs]
      · rfl
      · cases r <;> simp [Moment.stopsWriting, hs]
    | socket | bind | listen | accept | connect | localAddr => exact ⟨rfl, rfl, rfl, rfl⟩

theorem quiet_of_held {t : Nat} (hw : Wired n) (ht : (n.slot t).end? = some (c, side))
    (he : e.subject? ≠ some t) : Quiet c side (n, e) := by
  have hne (s : Nat) (hs : e.subject? = some s) : (n.slot s).end? ≠ some (c, side) := by
    intro h
    exact he (hw.holder_unique h ht ▸ hs)
  refine quiet_of hne ?_
  intro s hd
  have hs := hne s (by rw [hd]; rfl)
  unfold yields
  split
  · rename_i h
    rw [h] at hs
    simpa [Slot.end?] using hs
  · rename_i q _
    simp only [decide_eq_false_iff_not, not_and, not_exists]
    intro hc p hp hk
    exact hw.not_waiting ht hp (by rw [hc, hk])
  · rfl
  · rfl
  · rfl

theorem quiet_of_waiting {t q : Nat} {own : Descriptor} {p : Pending} (hw : Wired n)
    (ho : Owned n) (ht : n.slot t = .listening own q) (hp : p ∈ n.waitingIn q)
    (he : e.subject? ≠ some t) : Quiet p.connection .callee (n, e) := by
  refine quiet_of ?_ ?_
  · intro s _ h
    exact hw.not_waiting h hp rfl
  · intro s hd
    have hs : s ≠ t := by
      intro hs
      exact he (by rw [hd, hs]; rfl)
    unfold yields
    split
    · rename_i h
      simp only [decide_eq_false_iff_not]
      intro hk
      exact hw.not_waiting (end?_of_slot h) hp (by rw [hk.1, hk.2])
    · rename_i q' h
      simp only [true_and, decide_eq_false_iff_not, not_exists, not_and]
      intro p' hp' hk
      have hq : q' = q := hw.queue_unique hp' hp hk
      subst hq
      exact hs (ho.listener_unique h ht)
    · rfl
    · rfl
    · rfl

/-- What is written to a pipe while nothing is done where it is read. -/
theorem pipe_of_quiet (hw : Wired n) (h : Change n e n') (hq : Quiet c side (n, e)) :
    n'.pipe c side =
        { n.pipe c side with
          buffer := (n.pipe c side).buffer ++ Moment.sentTo c side (n, e)
          writeClosed := (n.pipe c side).writeClosed || Moment.stopsWriting c side.other (n, e) } ∧
      (Moment.sentTo c side (n, e) ≠ [] →
        (n.pipe c side).writeClosed = false ∧ (n.pipe c side).readClosed = false) := by
  have hm := move_of_change hw h c side
  rw [hq.received, hq.reading] at hm
  exact hm.unread

/-- A pipe whose writing side is closed changes only where it is read. -/
theorem pipe_of_closed (hw : Wired n) (h : Change n e n') (hq : Quiet c side (n, e))
    (hc : (n.pipe c side).writeClosed = true) : n'.pipe c side = n.pipe c side := by
  obtain ⟨hp, hs⟩ := pipe_of_quiet hw h hq
  have hn : Moment.sentTo c side (n, e) = [] := by
    by_contra hn
    exact absurd (hs hn).1 (by simp [hc])
  rw [hp, hn, List.append_nil, hc, Bool.true_or, ← hc]

/-- A pipe does not change while nothing is done at either end of it. -/
theorem pipe_frame (hw : Wired n) (h : Change n e n') (hq : Quiet c side (n, e))
    (hq' : Quiet c side.other (n, e)) : n'.pipe c side = n.pipe c side := by
  have hs := hq'.sent
  rw [other_other] at hs
  rw [(pipe_of_quiet hw h hq).1, hs, hq'.writing, List.append_nil, Bool.or_false]

/-- The queue of a listener does not change when someone else does something, unless that connects
to it. -/
theorem waitingIn_frame {s q : Nat} {own : Descriptor} (ho : Owned n) (h : Change n e n')
    (hs : n.slot s = .listening own q) (he : e.subject? ≠ some s)
    (ht : ∀ t target, e.connects? = some (t, target) → target.endpoint ≠ own.endpoint) :
    n'.waitingIn q = n.waitingIn q := by
  obtain ⟨queue, hq, -⟩ := ho.open_queue hs
  have hne {t k : Nat} {own' : Descriptor} (ht : n.slot t = .listening own' k)
      (hts : some t ≠ some s) : k ≠ q := by
    intro hk
    subst hk
    exact hts (congrArg some (ho.listener_unique ht hs))
  cases h with
  | failed _ _ => rfl
  | told _ => rfl
  | made => rfl
  | bound _ _ _ _ => rfl
  | listening _ =>
    have hl := (List.getElem?_eq_some_iff.mp hq).1
    exact waitingIn_of_queues (List.getElem?_append_left hl)
  | accepted hacc _ _ => exact waitingIn_of_queues (List.getElem?_set_ne (hne hacc he))
  | connected hcall hr hk htk =>
    rename_i t bound own' target k queue' m
    refine waitingIn_of_queues (List.getElem?_set_ne ?_)
    -- the queue of a listener is registered for its endpoint only
    intro hkq
    subst hkq
    obtain ⟨hreg, -, -⟩ := of_route hr
    obtain ⟨u, own'', hu, hown⟩ := ho.queue?_eq_some_iff.mp hreg
    have hus := ho.listener_unique hu hs
    rw [hus, hs] at hu
    cases hu
    exact ht t target rfl hown.symm
  | crowded _ _ _ => rfl
  | sent _ _ _ => rfl
  | received _ _ _ => rfl
  | shut _ => rfl
  | dropped t =>
    refine waitingIn_of_queues ?_
    rw [drop_queues]
    cases hslot : n.slot t with
    | listening own' k => exact List.getElem?_modify_ne _ _ (hne hslot he)
    | fresh | bound _ | connected _ _ _ | closed => rfl

/-- A caller that has connected to a listener waits at the end of its queue, with a connection that
is new. -/
theorem waitingIn_of_connects {s q t : Nat} {own target : Descriptor} (ho : Owned n)
    (h : Change n e n') (hs : n.slot s = .listening own q) (he : e.connects? = some (t, target))
    (ht : target.endpoint = own.endpoint) :
    ∃ own', n'.slot t = .connected own' n.connections.length .caller ∧
      n'.waitingIn q = n.waitingIn q ++ [{
        own := Descriptor.local target.cid target.port
        peer := Descriptor.peer own'.cid own'.port
        connection := n.connections.length }] := by
  obtain ⟨bound, own', k, queue, m, hcall, hr, hk, rfl⟩ := of_connects h he
  have hl := lt_of_slot hcall (Slot.ofCaller_ne_closed bound)
  obtain ⟨hreg, -, -⟩ := of_route hr
  have hown := ho.queue?_eq_some_iff.mpr ⟨s, own, hs, rfl⟩
  rw [ht, hown] at hreg
  cases hreg
  refine ⟨own', ?_, ?_⟩
  · rw [slot_of_slots_set rfl hl]
    exact if_pos rfl
  · have hlk := (List.getElem?_eq_some_iff.mp hk).1
    rw [waitingIn_of_getElem? hk, waitingIn]
    simp only [List.getElem?_set_self hlk]
    rfl

/-- A listener is never aborted, as its queue is open. What it accepts is whoever waits first, and
is a new socket that is connected. -/
theorem of_accept {s q : Nat} {own : Descriptor} {r : Except IoError (Nat × Descriptor)}
    (ho : Owned n) (hs : n.slot s = .listening own q) (h : n.accept s = some (r, n')) :
    ∃ p rest, n.waitingIn q = p :: rest ∧ r = .ok (n.slots.length, p.peer) ∧
      n'.slots = n.slots ++ [.connected p.own p.connection .callee] := by
  obtain ⟨queue, hq, hopen⟩ := ho.open_queue hs
  cases hp : queue.pending with
  | nil => simp [accept_eq_none hs hq hp hopen] at h
  | cons p rest =>
    rw [accept_eq hs hq hp, Option.some.injEq, Prod.mk.injEq] at h
    obtain ⟨rfl, rfl⟩ := h
    exact ⟨p, rest, (waitingIn_of_getElem? hq).trans hp, rfl, rfl⟩

/-- A listener that accepts goes on listening, and whoever waited first has a socket for its other
end. -/
theorem accept_of_first {s q : Nat} {own : Descriptor} {first : Pending} {rest : List Pending}
    {r : Except IoError (Nat × Descriptor)} (hs : n.slot s = .listening own q)
    (hq : n.waitingIn q = first :: rest) (h : n.accept s = some (r, n')) :
    r = .ok (n.slots.length, first.peer) ∧ n'.slot s = .listening own q ∧
      (n'.slot n.slots.length).end? = some (first.connection, .callee) ∧
      ∀ c side, n'.pipe c side = n.pipe c side := by
  obtain ⟨queue, hqueue, hpending⟩ := exists_queue_of_waitingIn hq
  rw [accept_eq hs hqueue hpending, Option.some.injEq, Prod.mk.injEq] at h
  obtain ⟨rfl, rfl⟩ := h
  refine ⟨rfl, ?_, ?_, fun _ _ => rfl⟩
  · rw [slot_of_slots_append rfl, if_neg (Nat.ne_of_lt (lt_of_slot hs (by simp)))]
    exact hs
  · rw [slot_of_slots_append rfl, if_pos rfl]
    rfl

/-- Whoever waits first in a queue still does when someone else than the listener has done
something. -/
theorem first_waiting_frame {s q : Nat} {own : Descriptor} {first : Pending} {rest : List Pending}
    (ho : Owned n) (h : Change n e n') (hs : n.slot s = .listening own q)
    (he : e.subject? ≠ some s) (hq : n.waitingIn q = first :: rest) :
    ∃ rest', n'.waitingIn q = first :: rest' := by
  by_cases ht : ∀ t target, e.connects? = some (t, target) → target.endpoint ≠ own.endpoint
  · exact ⟨rest, (waitingIn_frame ho h hs he ht).trans hq⟩
  · simp only [not_forall, not_not] at ht
    obtain ⟨t, target, hc, ht⟩ := ht
    obtain ⟨own', -, hw⟩ := waitingIn_of_connects ho h hs hc ht
    rw [hq, List.cons_append] at hw
    exact ⟨_, hw⟩

theorem connect_isSome {s : Nat} {target : Descriptor} {port : UInt32} (ho : Owned n)
    (hs : n.slot s = .fresh) (hp : HandedOut port) (hf : n.registry.has ⟨n.cid, port⟩ = false) :
    (n.connect s target).isSome := by
  have ha := allocate?_isSome ho.counter hp hf
  unfold connect
  rw [hs]
  unfold connectFrom route
  cases n.registry.queue? target.endpoint with
  | none => rfl
  | some q =>
    cases hx : allocate? n.registry n.cid n.counter with
    | none => simp [hx] at ha
    | some x =>
      obtain ⟨port', next⟩ := x
      dsimp only
      split <;> rfl

end Handoff.Loopback.Network
