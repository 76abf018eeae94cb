import Handoff.Proofs.Loopback.Holders

/-!
First come, first served. A run is read as what arrived at a listener and what it admitted; the
main statement, `arrivals_of_run`, is that connections are admitted in the order of their arrival,
that they wait while there is room, and that the two ends of each are joined to each other.
-/
namespace Handoff.Loopback

/-- A connection that was asked for at a listener: by which socket, and its address then. -/
structure Arrival where
  caller : Nat
  address : Descriptor
  connection : Nat
  deriving DecidableEq, Repr

/-- A connection that a listener accepted: the new socket, and the addresses it was told. -/
structure Admission where
  listener : Nat
  socket : Nat
  own : Descriptor
  peer : Descriptor
  connection : Nat
  deriving DecidableEq, Repr

/-- A connection and what its accepted end is to know of its caller. -/
def Arrival.ticket (a : Arrival) : Descriptor × Nat :=
  (Descriptor.peer a.address.cid a.address.port, a.connection)

def Admission.ticket (a : Admission) : Descriptor × Nat := (a.peer, a.connection)

def Pending.ticket (p : Pending) : Descriptor × Nat := (p.peer, p.connection)

namespace Network

namespace Moment

def after : Moment → Network
  | (n, .answered q _) =>
    match n.call q with
    | some (_, n') => n'
    | none => n
  | (n, .dropped s) => n.drop s

/-- The connection that has just been asked for at a listener. -/
def arrival? (s : Nat) (m : Moment) : Option Arrival :=
  match m.2.connects? with
  | none => none
  | some (t, target) =>
    match m.1.slot s, m.after.slot t with
    | .listening own _, .connected address c _ =>
      if target.endpoint = own.endpoint then some ⟨t, address, c⟩ else none
    | _, _ => none

/-- The connection that has just been accepted. -/
def admission? : Moment → Option Admission
  | (n, .answered (.accept s) (.ok (k, peer))) =>
    match (after (n, .answered (.accept s) (.ok (k, peer)))).slot k with
    | .connected own c _ => some ⟨s, k, own, peer, c⟩
    | _ => none
  | _ => none

/-- The connection that a listener has just accepted. -/
def admissionAt? (s : Nat) (m : Moment) : Option Admission :=
  m.admission?.filter fun a => a.listener = s

end Moment

open Moment

variable {n n' : Network} {e : Event} {tr : List Moment} {s q : Nat} {own : Descriptor}

theorem after_of_step (h : Step n e n') : after (n, e) = n' := by
  cases h with
  | drop s => rfl
  | call h => simp only [after, h]

theorem arrival?_of_not_listening (h : ∀ own q, n.slot s ≠ .listening own q) :
    arrival? s (n, e) = none := by
  unfold arrival?
  cases e.connects? with
  | none => rfl
  | some x =>
    dsimp only
    split
    · rename_i own q _ _ _ hs _
      exact absurd hs (h own q)
    · rfl

theorem arrival?_of_elsewhere (hs : n.slot s = .listening own q)
    (h : ∀ t target, e.connects? = some (t, target) → target.endpoint ≠ own.endpoint) :
    arrival? s (n, e) = none := by
  unfold arrival?
  cases he : e.connects? with
  | none => rfl
  | some x =>
    obtain ⟨t, target⟩ := x
    dsimp only
    rw [hs]
    split
    · rename_i hl _
      cases hl
      exact if_neg (h t target he)
    · rfl

/-- Every caller that connects to the endpoint of a listener arrives there. -/
theorem exists_arrival {t : Nat} {target : Descriptor} (h : Step n e n')
    (hs : n.slot s = .listening own q) (he : e.connects? = some (t, target))
    (ht : target.endpoint = own.endpoint) :
    ∃ address, arrival? s (n, e) = some ⟨t, address, n.connections.length⟩ ∧
      n'.slot t = .connected address n.connections.length .caller := by
  obtain ⟨address, hcaller, -⟩ := slot_of_connects (change_of_step h) he
  refine ⟨address, ?_, hcaller⟩
  simp only [arrival?, he, hs, after_of_step h, hcaller, ht, if_true]

/-- An arrival is a new connection. -/
theorem of_arrival? {a : Arrival} (h : Step n e n') (ha : arrival? s (n, e) = some a) :
    n'.slot a.caller = .connected a.address a.connection .caller ∧
      a.connection = n.connections.length ∧ n'.connections.length = n.connections.length + 1 := by
  unfold arrival? at ha
  cases he : e.connects? with
  | none => simp [he] at ha
  | some x =>
    obtain ⟨t, target⟩ := x
    obtain ⟨address, hslot, hc⟩ := slot_of_connects (change_of_step h) he
    simp only [he, after_of_step h, hslot] at ha
    split at ha
    · rename_i hx
      cases hx
      split at ha
      · cases ha
        exact ⟨hslot, rfl, by simp [hc]⟩
      · simp at ha
    · simp at ha

theorem admission?_of_accepted {queue : Queue} {p : Pending} {rest : List Pending}
    (hs : n.slot s = .listening own q) (hq : n.queues[q]? = some queue)
    (hp : queue.pending = p :: rest) :
    admission? (n, .answered (.accept s) (.ok (n.slots.length, p.peer))) =
      some ⟨s, n.slots.length, p.own, p.peer, p.connection⟩ := by
  have hstep := Step.call (q := .accept s) (accept_eq hs hq hp)
  rw [admission?, after_of_step hstep, slot_of_slots_append rfl, if_pos rfl]

theorem of_admission? {a : Admission} (h : Step n e n') (ha : admission? (n, e) = some a) :
    e = .answered (.accept a.listener) (.ok (a.socket, a.peer)) ∧
      n'.slot a.socket = .connected a.own a.connection .callee ∧
      ∃ own q p rest, n.slot a.listener = .listening own q ∧ n.waitingIn q = p :: rest ∧
        n'.waitingIn q = rest ∧ (∀ k ≠ q, n'.waitingIn k = n.waitingIn k) ∧ a.own = p.own ∧
        a.ticket = p.ticket := by
  cases change_of_step h with
  | @accepted s own q queue p rest hs hq hp =>
    rw [admission?_of_accepted hs hq hp] at ha
    cases ha
    refine ⟨rfl, ?_, own, q, p, rest, hs, ?_, ?_, ?_, rfl, rfl⟩
    · rw [slot_of_slots_append rfl, if_pos rfl]
    · rw [waitingIn_of_getElem? hq, hp]
    · have hl := (List.getElem?_eq_some_iff.mp hq).1
      simp only [waitingIn, List.getElem?_set_self hl]
    · intro k hk
      exact waitingIn_of_queues (List.getElem?_set_ne (Ne.symm hk))
  | failed q e => cases q <;> simp [admission?] at ha
  | _ => simp [admission?] at ha

theorem exists_admission {k : Nat} (h : Step n e n') (hs : e.subject? = some s)
    (hk : e.makes? = some k) : ∃ a, admissionAt? s (n, e) = some a := by
  cases change_of_step h with
  | accepted hl hq hp =>
    cases hs
    have ha := admission?_of_accepted hl hq hp
    exact ⟨_, Option.filter_eq_some_iff.mpr ⟨ha, by simp⟩⟩
  | made => simp [Event.subject?] at hs
  | failed q e => cases q <;> simp [Event.makes?] at hk
  | _ => simp [Event.makes?] at hk

theorem admissionAt?_of_other (h : Step n e n') (he : e.subject? ≠ some s) :
    admissionAt? s (n, e) = none := by
  unfold admissionAt?
  cases ha : admission? (n, e) with
  | none => rfl
  | some a =>
    obtain ⟨rfl, -⟩ := of_admission? h ha
    have hs : a.listener ≠ s := by
      rintro rfl
      exact he rfl
    simp [hs]

theorem admissionAt?_of_not_listening (h : Step n e n')
    (hs : ∀ own q, n.slot s ≠ .listening own q) : admissionAt? s (n, e) = none := by
  unfold admissionAt?
  cases ha : admission? (n, e) with
  | none => rfl
  | some a =>
    obtain ⟨-, -, own, q, -, -, hl, -⟩ := of_admission? h ha
    have hne : a.listener ≠ s := by
      rintro rfl
      exact hs own q hl
    simp [hne]

/-- Who waits changes only when a connection is accepted or asked for, or a socket is given up. -/
theorem waitingIn_of_step (h : Step n e n') (ha : admission? (n, e) = none)
    (hc : e.connects? = none) (hd : ∀ s, e ≠ .dropped s) (q : Nat) :
    n'.waitingIn q = n.waitingIn q := by
  cases change_of_step h with
  | accepted hs hk hp =>
    rw [admission?_of_accepted hs hk hp] at ha
    simp at ha
  | listening _ =>
    by_cases hq : q < n.queues.length
    · exact waitingIn_of_queues (List.getElem?_append_left hq)
    · unfold waitingIn
      rw [List.getElem?_append_right (Nat.le_of_not_lt hq),
        List.getElem?_eq_none_iff.mpr (Nat.le_of_not_lt hq)]
      cases q - n.queues.length <;> rfl
  | connected _ _ _ _ => simp [Event.connects?] at hc
  | dropped s => exact absurd rfl (hd s)
  | failed | told | made | bound | crowded | sent | received | shut => rfl

/-- Only a socket that is bound, or not yet, is connected. -/
theorem ofCaller_of_connects {t : Nat} {target : Descriptor} (h : Change n e n')
    (he : e.connects? = some (t, target)) :
    e.subject? = some t ∧ ∃ bound, n.slot t = Slot.ofCaller bound := by
  cases h with
  | connected hs _ _ _ =>
    cases he
    exact ⟨rfl, _, hs⟩
  | failed q _ => cases q <;> simp [Event.connects?] at he
  | _ => simp [Event.connects?] at he

/-! ### A listener through a run -/

/-- A queue that has as many places as it had at first, and no more waiting than that. -/
def Places (n : Network) (q places : Nat) : Prop :=
  ∃ queue, n.queues[q]? = some queue ∧ queue.backlog = places ∧ queue.pending.length ≤ places

/-- No operation changes the number of places in a queue, or lets more wait than there are. -/
theorem places_of_change {places : Nat} (h : Change n e n') (hp : Places n q places) :
    Places n' q places := by
  obtain ⟨queue, hq, hb, hl⟩ := hp
  have hset {m : Network} {k : Nat} {queue₁ queue₂ : Queue}
      (hm : m.queues = n.queues.set k queue₂) (hk : n.queues[k]? = some queue₁)
      (hb' : queue₂.backlog = queue₁.backlog)
      (hl' : queue₁.pending.length ≤ queue₁.backlog → queue₂.pending.length ≤ queue₂.backlog) :
      Places m q places := by
    by_cases hkq : k = q
    · subst hkq
      cases hk.symm.trans hq
      refine ⟨queue₂, ?_, hb'.trans hb, ?_⟩
      · rw [hm]
        exact List.getElem?_set_self (List.getElem?_eq_some_iff.mp hk).1
      · rw [← hb, ← hb']
        exact hl' (by rwa [hb])
    · exact ⟨queue, by rw [hm, List.getElem?_set_ne hkq, hq], hb, hl⟩
  cases h with
  | failed | told | made | bound | crowded | sent | received | shut => exact ⟨queue, hq, hb, hl⟩
  | listening _ =>
    exact ⟨queue, (List.getElem?_append_left (List.getElem?_eq_some_iff.mp hq).1).trans hq, hb, hl⟩
  | accepted _ hk hp =>
    refine hset rfl hk rfl ?_
    rw [hp, List.length_cons]
    exact Nat.le_of_succ_le
  | connected _ _ hk ht =>
    refine hset rfl hk rfl ?_
    intro _
    simp only [Queue.takes, Bool.and_eq_true, decide_eq_true_eq] at ht
    simp only [Queue.push, List.length_append, List.length_singleton]
    exact ht.2
  | dropped s =>
    unfold Places
    rw [drop_queues]
    split
    · rename_i k _
      by_cases hkq : k = q
      · subst hkq
        exact ⟨queue.close, by rw [List.getElem?_modify_eq, hq]; rfl, hb, Nat.zero_le _⟩
      · exact ⟨queue, by rw [List.getElem?_modify_ne _ _ hkq, hq], hb, hl⟩
    · exact ⟨queue, hq, hb, hl⟩

/-- A listener that has admitted some of those that arrived, while the others wait. -/
structure Serving (s q places : Nat) (own : Descriptor) (arrived : List Arrival)
    (admitted : List Admission) (n : Network) : Prop where
  listening : n.slot s = .listening own q
  places : Places n q places
  order : arrived.map Arrival.ticket =
    admitted.map Admission.ticket ++ (n.waitingIn q).map Pending.ticket
  home : ∀ a ∈ admitted, a.own.endpoint = own.endpoint
  waits : ∀ p ∈ n.waitingIn q, p.own.endpoint = own.endpoint

theorem Serving.length_arrived {places : Nat} {arrived : List Arrival} {admitted : List Admission}
    (h : Serving s q places own arrived admitted n) :
    arrived.length = admitted.length + (n.waitingIn q).length := by
  have hl := congrArg List.length h.order
  simpa using hl

theorem Serving.length_le {places : Nat} {arrived : List Arrival} {admitted : List Admission}
    (h : Serving s q places own arrived admitted n) :
    arrived.length ≤ admitted.length + places := by
  obtain ⟨queue, hq, -, hl⟩ := h.places
  rw [h.length_arrived, waitingIn_of_getElem? hq]
  exact Nat.add_le_add_left hl _

/-- A listener that was given up had admitted the first of those that arrived. -/
structure Served (s places : Nat) (own : Descriptor) (arrived : List Arrival)
    (admitted : List Admission) (n : Network) : Prop where
  closed : n.slot s = .closed
  old : s < n.slots.length
  length_le : arrived.length ≤ admitted.length + places
  order : admitted.map Admission.ticket <+: arrived.map Arrival.ticket
  home : ∀ a ∈ admitted, a.own.endpoint = own.endpoint

variable {places : Nat} {arrived : List Arrival} {admitted : List Admission}

theorem Serving.drop (h : Serving s q places own arrived admitted n) :
    Served s places own arrived admitted (n.drop s) where
  closed := by rw [slot_drop, if_pos rfl]
  old := by
    rw [drop_slots, List.length_set]
    exact lt_of_slot h.listening (by simp)
  length_le := h.length_le
  order := ⟨_, h.order.symm⟩
  home := h.home

/-- The listener itself accepts the first that waits, or changes nothing, or is given up. -/
theorem Serving.own_turn (h : Serving s q places own arrived admitted n) (hs : Step n e n')
    (he : e.subject? = some s) (hd : e ≠ .dropped s) :
    Serving s q places own arrived (admitted ++ (admissionAt? s (n, e)).toList) n' := by
  have hl := h.listening
  have hc := change_of_step hs
  have hslot : n'.slot s = .listening own q := by
    rw [slot_of_settled hc hd (lt_of_slot hl (by simp)), hl]
    intro bound
    rw [hl]
    exact Slot.listening_ne_ofCaller own q bound
  cases ha : admission? (n, e) with
  | some a =>
    obtain ⟨rfl, -, own', q', p, rest, hl', hw, hw', -, hown, ht⟩ := of_admission? hs ha
    cases he
    rw [hl] at hl'
    cases hl'
    have hat : admissionAt? a.listener (n, .answered (.accept a.listener) (.ok (a.socket, a.peer)))
        = some a := by simp [admissionAt?, ha]
    rw [hat]
    constructor
    · exact hslot
    · exact places_of_change hc h.places
    · rw [h.order, hw, hw', Option.toList_some, List.map_append, List.append_assoc, List.map_cons,
        List.map_cons, List.map_nil, ht, List.singleton_append]
    · intro b hb
      rcases List.mem_append.mp hb with hb | hb
      · exact h.home b hb
      · cases List.mem_singleton.mp (by simpa using hb)
        rw [hown]
        exact h.waits p (by rw [hw]; exact List.mem_cons_self)
    · intro p' hp'
      exact h.waits p' (by rw [hw]; exact List.mem_cons_of_mem _ (hw' ▸ hp'))
  | none =>
    have hat : admissionAt? s (n, e) = none := by simp [admissionAt?, ha]
    have hn : e.connects? = none := by
      cases hx : e.connects? with
      | none => rfl
      | some x =>
        obtain ⟨hsub, bound, hb⟩ := ofCaller_of_connects hc hx
        cases hsub.symm.trans he
        exact absurd (hl.symm.trans hb) (Slot.listening_ne_ofCaller own q _)
    have hw : n'.waitingIn q = n.waitingIn q := by
      refine waitingIn_of_step hs ha hn ?_ q
      rintro k rfl
      cases he
      exact hd rfl
    rw [hat, Option.toList_none, List.append_nil]
    exact ⟨hslot, places_of_change hc h.places, hw ▸ h.order, h.home, hw ▸ h.waits⟩

/-- Others than the listener at most arrive, and then wait at the end of the queue. -/
theorem Serving.other_turn (h : Serving s q places own arrived admitted n) (ho : Owned n)
    (hs : Step n e n') (he : e.subject? ≠ some s) :
    Serving s q places own (arrived ++ (arrival? s (n, e)).toList) admitted n' := by
  have hl := h.listening
  have hc := change_of_step hs
  have hslot : n'.slot s = .listening own q := by
    rw [slot_frame hc (lt_of_slot hl (by simp)) he, hl]
  by_cases ht : ∀ t target, e.connects? = some (t, target) → target.endpoint ≠ own.endpoint
  · have hw := waitingIn_frame ho hc hl he ht
    rw [arrival?_of_elsewhere hl ht, Option.toList_none, List.append_nil]
    exact ⟨hslot, places_of_change hc h.places, hw ▸ h.order, h.home, hw ▸ h.waits⟩
  · simp only [not_forall, not_not] at ht
    obtain ⟨t, target, hconn, ht⟩ := ht
    obtain ⟨address, hcaller, hw⟩ := waitingIn_of_connects ho hc hl hconn ht
    obtain ⟨address', ha, hcaller'⟩ := exists_arrival hs hl hconn ht
    cases hcaller.symm.trans hcaller'
    rw [ha]
    constructor
    · exact hslot
    · exact places_of_change hc h.places
    · rw [List.map_append, h.order, hw, List.map_append, List.append_assoc]
      rfl
    · exact h.home
    · intro p hp
      rw [hw] at hp
      rcases List.mem_append.mp hp with hp | hp
      · exact h.waits p hp
      · cases List.mem_singleton.mp hp
        exact ht

theorem filterMap_snoc {α : Type*} {β : Type} (f : α → Option β) (l : List α) (a : α) :
    (l ++ [a]).filterMap f = l.filterMap f ++ (f a).toList := by
  rw [List.filterMap_append]
  cases h : f a <;> simp [h]

theorem Serving.of_run {m : Network} (h : Serving s q places own arrived admitted m) (ho : Owned m)
    (hr : Run m tr n) :
    Serving s q places own (arrived ++ tr.filterMap (arrival? s))
      (admitted ++ tr.filterMap (admissionAt? s)) n ∨
    Served s places own (arrived ++ tr.filterMap (arrival? s))
      (admitted ++ tr.filterMap (admissionAt? s)) n := by
  induction hr with
  | nil => exact .inl (by simpa using h)
  | @snoc tr k k' e hr hs ih =>
    have hc := change_of_step hs
    rw [filterMap_snoc, filterMap_snoc, ← List.append_assoc, ← List.append_assoc]
    rcases ih with ih | ih
    · by_cases he : e.subject? = some s
      · have hna : arrival? s (k, e) = none := by
          refine arrival?_of_elsewhere ih.listening ?_
          intro t target hconn
          obtain ⟨hsub, bound, hb⟩ := ofCaller_of_connects hc hconn
          cases hsub.symm.trans he
          exact absurd (ih.listening.symm.trans hb) (Slot.listening_ne_ofCaller own q _)
        rw [hna, Option.toList_none, List.append_nil]
        by_cases hd : e = .dropped s
        · subst hd
          cases hc
          have hnone : admissionAt? s (k, .dropped s) = none := rfl
          rw [hnone, Option.toList_none, List.append_nil]
          exact .inr ih.drop
        · exact .inl (ih.own_turn hs he hd)
      · rw [admissionAt?_of_other hs he, Option.toList_none, List.append_nil]
        exact .inl (ih.other_turn (owned_of_run hr ho) hs he)
    · have hn (own : Descriptor) (q : Nat) : k.slot s ≠ .listening own q := by
        rw [ih.closed]
        simp
      rw [arrival?_of_not_listening hn, admissionAt?_of_not_listening hs hn, Option.toList_none,
        Option.toList_none, List.append_nil, List.append_nil]
      exact .inr ⟨closed_of_change hc ih.old ih.closed,
        Nat.lt_of_lt_of_le ih.old (length_slots_le hc), ih.length_le, ih.order, ih.home⟩

/-- A listener that has just begun has admitted nobody, and nobody waits. -/
theorem serving_of_listen {b : UInt32} (hs : n.slot s = .bound own)
    (h : Step n (.answered (.listen s b) (.ok ())) n') :
    ∃ q, Serving s q (max 1 b.toNat) own [] [] n' := by
  have ha : n.listen s b = some (.ok (), n') := h.answer
  simp only [listen, hs, Option.some.injEq, Prod.mk.injEq, true_and] at ha
  subst ha
  refine ⟨n.queues.length, ?_, ?_, ?_, by simp, ?_⟩
  · rw [setSlot, slot_of_slots_set rfl (lt_of_slot hs (by simp)), if_pos rfl]
  · exact ⟨Queue.ofBacklog b, by simp [setSlot], rfl, Nat.zero_le _⟩
  · simp [waitingIn, setSlot, Queue.ofBacklog]
  · simp [waitingIn, setSlot, Queue.ofBacklog]

/-- Nobody arrives at a socket before it listens, and it admits nobody. -/
theorem nobody_before_listen (h : Run n tr n') (hs : n'.slot s = .bound own) :
    tr.filterMap (arrival? s) = [] ∧ tr.filterMap (admissionAt? s) = [] := by
  have hn {m : Network} {e : Event} (hm : (m, e) ∈ tr) :
      (∀ own q, m.slot s ≠ .listening own q) ∧ ∃ m', Step m e m' := by
    obtain ⟨tr₁, m', tr₂, -, -, hstep, hr⟩ := h.of_mem hm
    refine ⟨?_, m', hstep⟩
    intro own' q hl
    have hr : ∃ tr', Run m tr' n' := ⟨_, (Run.nil.snoc hstep).trans hr⟩
    obtain ⟨tr', hr⟩ := hr
    have hset (bound : Option Descriptor) : m.slot s ≠ Slot.ofCaller bound := by
      rw [hl]
      exact Slot.listening_ne_ofCaller own' q bound
    obtain ⟨-, hx⟩ := settled_of_run hr (lt_of_slot hl (by simp)) hset
    rw [hs, hl] at hx
    simp at hx
  constructor
  · refine List.filterMap_eq_nil_iff.mpr ?_
    rintro ⟨m, e⟩ hm
    exact arrival?_of_not_listening (hn hm).1
  · refine List.filterMap_eq_nil_iff.mpr ?_
    rintro ⟨m, e⟩ hm
    obtain ⟨hl, m', hstep⟩ := hn hm
    exact admissionAt?_of_not_listening hstep hl

/-- Who has arrived at a listener and who was admitted, in all of a run that it began to listen
in. -/
theorem serving_of_run {cid b : UInt32} {m : Network} (h : Run (ofCid cid) tr n)
    (hown : m.slot s = .bound own) (hb : (m, .answered (.listen s b) (.ok ())) ∈ tr) :
    (∃ q, Serving s q (max 1 b.toNat) own (tr.filterMap (arrival? s))
      (tr.filterMap (admissionAt? s)) n) ∨
    Served s (max 1 b.toNat) own (tr.filterMap (arrival? s)) (tr.filterMap (admissionAt? s)) n := by
  obtain ⟨tr₁, m', tr₂, rfl, h₁, hstep, h₂⟩ := h.of_mem hb
  obtain ⟨q, hserve⟩ := serving_of_listen hown hstep
  have ho := owned_of_run (h₁.snoc hstep) (owned_ofCid cid)
  have hnobody := nobody_before_listen h₁ hown
  have hl (own : Descriptor) (q : Nat) : m.slot s ≠ .listening own q := by
    rw [hown]
    simp
  have harr : (tr₁ ++ (m, .answered (.listen s b) (.ok ())) :: tr₂).filterMap (arrival? s) =
      tr₂.filterMap (arrival? s) := by
    rw [List.filterMap_append, hnobody.1, List.filterMap_cons_none (arrival?_of_not_listening hl),
      List.nil_append]
  have hadm : (tr₁ ++ (m, .answered (.listen s b) (.ok ())) :: tr₂).filterMap (admissionAt? s) =
      tr₂.filterMap (admissionAt? s) := by
    rw [List.filterMap_append, hnobody.2,
      List.filterMap_cons_none (admissionAt?_of_not_listening hstep hl), List.nil_append]
  rw [harr, hadm]
  exact (hserve.of_run ho h₂).imp_left fun hx => ⟨q, hx⟩

/-! ### The calls that listeners and callers make -/

/-- A caller is taken while a place is left, and refused otherwise. -/
theorem connect_of_listening {t : Nat} {bound : Option Descriptor} {target : Descriptor}
    (ho : Owned n) (hl : n.slot s = .listening own q) (hp : Places n q places)
    (hs : n.slot t = Slot.ofCaller bound) (ht : target.endpoint = own.endpoint)
    (hf : bound = none → ∃ port, HandedOut port ∧ n.registry.has ⟨n.cid, port⟩ = false) :
    ∃ n', n.connect t target = some (if (n.waitingIn q).length < places then .ok ()
      else .error (.plain .connectionRefused), n') := by
  have hreg : n.registry.queue? target.endpoint = some q :=
    ho.queue?_eq_some_iff.mpr ⟨s, own, hl, ht.symm⟩
  have hroute : ∃ own' m, n.route bound target = some (.ok (q, own'), m) := by
    cases bound with
    | some own' => exact ⟨own', n, route_of_bound hreg own'⟩
    | none =>
      obtain ⟨port, hport, hfree⟩ := hf rfl
      have ha := allocate?_isSome ho.counter hport hfree
      obtain ⟨⟨port, next⟩, ha⟩ := Option.isSome_iff_exists.mp ha
      exact ⟨_, _, route_of_fresh hreg ha⟩
  obtain ⟨own', m, hroute⟩ := hroute
  obtain ⟨-, hm, -⟩ := of_route hroute
  obtain ⟨queue, hq, rfl, -⟩ := hp
  obtain ⟨queue', hq', hopen⟩ := ho.open_queue hl
  cases hq.symm.trans hq'
  have hmq : m.queues[q]? = some queue := by rw [hm, hq]
  rw [connect_eq_connectFrom hs, connectFrom, hroute, waitingIn_of_getElem? hq]
  by_cases hroom : queue.pending.length < queue.backlog
  · simp [enqueue, hmq, Queue.takes, hopen, hroom]
  · simp [enqueue, hmq, Queue.takes, hopen, hroom]

theorem accept_eq_none_iff (ho : Owned n) (hl : n.slot s = .listening own q) :
    n.accept s = none ↔ n.waitingIn q = [] := by
  obtain ⟨queue, hq, hopen⟩ := ho.open_queue hl
  rw [waitingIn_of_getElem? hq]
  cases hp : queue.pending with
  | nil => simp [accept_eq_none hl hq hp hopen]
  | cons p rest => simp [accept_eq hl hq hp]

/-! ### The two ends of a connection -/

/-- One socket receives what another sends towards a side of a connection, and all of it as long as
that side reads. -/
def Feeds (tr : List Moment) (n : Network) (c : Nat) (side : Side) (t k : Nat) : Prop :=
  tr.flatMap (receivedBy k) <+: tr.flatMap (sentBy t) ∧
    (tr.any (stopsReading c side) = false →
      tr.flatMap (receivedBy k) ++ (n.pipe c side).buffer = tr.flatMap (sentBy t))

theorem feeds_of_run {cid : UInt32} {c t k : Nat} {side : Side} {m m' : Network}
    (h : Run (ofCid cid) tr n) (hm : m ∈ visited tr n) (hm' : m' ∈ visited tr n)
    (ht : (m.slot t).end? = some (c, side.other)) (hk : (m'.slot k).end? = some (c, side)) :
    Feeds tr n c side t k := by
  have hw := wired_ofCid cid
  have hf := flow_ofCid h c side
  have hsent := sentBy_eq h hw hm ht
  rw [other_other] at hsent
  rw [Feeds, receivedBy_eq h hw hm' hk, hsent]
  exact ⟨hf.received_prefix, hf.kept⟩

/-- Whoever arrived has held the end of a caller. -/
theorem slot_of_arrival {n₀ : Network} (h : Run n₀ tr n) {c : Arrival}
    (hc : c ∈ tr.filterMap (arrival? s)) :
    ∃ m ∈ visited tr n, m.slot c.caller = .connected c.address c.connection .caller := by
  obtain ⟨⟨k, e⟩, hm, he⟩ := List.mem_filterMap.mp hc
  obtain ⟨tr₁, m, tr₂, rfl, -, hstep, hr⟩ := h.of_mem hm
  exact ⟨m, hr.visits_next k e, (of_arrival? hstep he).1⟩

/-- An accepted socket has held the end that was accepted. -/
theorem slot_of_admission {n₀ : Network} (h : Run n₀ tr n) {a : Admission}
    (ha : a ∈ tr.filterMap (admissionAt? s)) :
    ∃ m ∈ visited tr n, m.slot a.socket = .connected a.own a.connection .callee := by
  obtain ⟨⟨k, e⟩, hm, he⟩ := List.mem_filterMap.mp ha
  obtain ⟨he, -⟩ := Option.filter_eq_some_iff.mp he
  obtain ⟨tr₁, m, tr₂, rfl, -, hstep, hr⟩ := h.of_mem hm
  exact ⟨m, hr.visits_next k e, (of_admission? hstep he).2.1⟩

/-- Every arrival has a connection of its own. -/
theorem nodup_arrivals {n₀ : Network} (h : Run n₀ tr n) :
    ((tr.filterMap (arrival? s)).map Arrival.connection).Nodup ∧
      ∀ c ∈ tr.filterMap (arrival? s), c.connection < n.connections.length := by
  induction h with
  | nil => simp
  | @snoc tr m n e h hs ih =>
    have hl := length_connections_le (change_of_step hs)
    rw [filterMap_snoc]
    cases hc : arrival? s (m, e) with
    | none =>
      rw [Option.toList_none, List.append_nil]
      exact ⟨ih.1, fun c hm => Nat.lt_of_lt_of_le (ih.2 c hm) hl⟩
    | some c =>
      obtain ⟨-, hnew, hlen⟩ := of_arrival? hs hc
      rw [Option.toList_some, List.map_append, List.map_singleton]
      constructor
      · refine ih.1.append (List.nodup_singleton _) ?_
        intro x hx hx'
        obtain ⟨c', hm, rfl⟩ := List.mem_map.mp hx
        have hlt := ih.2 c' hm
        rw [List.mem_singleton.mp hx', hnew] at hlt
        exact Nat.lt_irrefl _ hlt
      · intro c' hm
        rcases List.mem_append.mp hm with hm | hm
        · exact Nat.lt_of_lt_of_le (ih.2 c' hm) hl
        · rw [List.mem_singleton.mp hm]
          omega

/-- The two ends of an accepted connection: the one that asked for it, as it was then, and the one
that was accepted. Each receives what the other sends. -/
structure Joined (tr : List Moment) (n : Network) (own : Descriptor) (c : Arrival)
    (a : Admission) : Prop where
  connection : a.connection = c.connection
  peer : a.peer = Descriptor.peer c.address.cid c.address.port
  home : a.own.endpoint = own.endpoint
  localAddr : n.slot a.socket ≠ .closed → n.localAddr a.socket = some (.ok a.own, n)
  toCallee : Feeds tr n c.connection .callee c.caller a.socket
  toCaller : Feeds tr n c.connection .caller a.socket c.caller

theorem joined_of_run {cid : UInt32} {c : Arrival} {a : Admission} (h : Run (ofCid cid) tr n)
    (hc : c ∈ tr.filterMap (arrival? s)) (ha : a ∈ tr.filterMap (admissionAt? s))
    (ht : c.ticket = a.ticket) (hown : a.own.endpoint = own.endpoint) : Joined tr n own c a := by
  obtain ⟨m, hm, hcaller⟩ := slot_of_arrival h hc
  obtain ⟨m', hm', hcallee⟩ := slot_of_admission h ha
  have he : a.connection = c.connection := (Prod.mk.inj ht).2.symm
  have hcaller' := end?_of_slot hcaller
  have hcallee' := end?_of_slot hcallee
  rw [he] at hcallee'
  constructor
  · exact he
  · exact (Prod.mk.inj ht).1.symm
  · exact hown
  · intro hopen
    obtain ⟨-, tr', hr⟩ := h.from_visited hm'
    have hset (bound : Option Descriptor) : m'.slot a.socket ≠ Slot.ofCaller bound := by
      rw [hcallee]
      exact Slot.connected_ne_ofCaller _ _ _ bound
    obtain ⟨-, hx⟩ := settled_of_run hr (lt_of_slot hcallee (by simp)) hset
    refine localAddr_of_own? ?_
    rw [hx.resolve_right hopen, hcallee]
    rfl
  · exact feeds_of_run h hm hm' hcaller' hcallee'
  · exact feeds_of_run h hm' hm hcallee' hcaller'

theorem exists_arrival_of_admitted {i : Nat} {a : Admission}
    (h : admitted.map Admission.ticket <+: arrived.map Arrival.ticket)
    (hi : admitted[i]? = some a) : ∃ c, arrived[i]? = some c ∧ c.ticket = a.ticket := by
  obtain ⟨hl, rfl⟩ := List.getElem?_eq_some_iff.mp hi
  have hx := List.prefix_iff_getElem?.mp h i (by simpa using hl)
  rwa [List.getElem?_map, List.getElem_map, Option.map_eq_some_iff] at hx

theorem Serving.first_waiting {p : Pending} {rest : List Pending}
    (h : Serving s q places own arrived admitted n) (hw : n.waitingIn q = p :: rest) :
    ∃ c, arrived[admitted.length]? = some c ∧ c.ticket = p.ticket := by
  have hx : (arrived.map Arrival.ticket)[admitted.length]? = some p.ticket := by
    rw [h.order, hw, List.getElem?_append_right (by simp)]
    simp
  rwa [List.getElem?_map, Option.map_eq_some_iff] at hx

theorem Serving.accept_of_waiting {r : Except IoError (Nat × Descriptor)}
    (h : Serving s q places own arrived admitted n) (ho : Owned n)
    (ha : n.accept s = some (r, n')) : ∃ c, arrived[admitted.length]? = some c ∧
      r = .ok (n.slots.length, Descriptor.peer c.address.cid c.address.port) := by
  obtain ⟨p, rest, hw, hr, -⟩ := of_accept ho h.listening ha
  obtain ⟨c, hc, ht⟩ := h.first_waiting hw
  have hpeer : Descriptor.peer c.address.cid c.address.port = p.peer := (Prod.mk.inj ht).1
  exact ⟨c, hc, by rw [hpeer, hr]⟩

/-- How a listener with so many places has dealt with those who have come to it. Whoever was let in
is in the one list, whoever was accepted in the other. While the listener lives, it is made to wait
exactly when nobody waits for it, and takes whoever has waited longest; a caller is refused exactly
when no place is left. -/
structure Admits (tr : List Moment) (n : Network) (s : Nat) (own : Descriptor) (b : UInt32)
    (arrived : List Arrival) (admitted : List Admission) : Prop where
  arrives : ∀ k t target q, (k, .answered (.connect t target) (.ok ())) ∈ tr →
    k.slot s = .listening own q → target.endpoint = own.endpoint → ∃ c ∈ arrived, c.caller = t
  accepted : ∀ k i peer, (k, .answered (.accept s) (.ok (i, peer))) ∈ tr →
    ∃ a ∈ admitted, a.socket = i ∧ a.peer = peer
  once : (arrived.map Arrival.connection).Nodup
  bounded : arrived.length ≤ admitted.length + max 1 b.toNat
  joined : ∀ (i : Nat) a, admitted[i]? = some a → ∃ c, arrived[i]? = some c ∧ Joined tr n own c a
  waits : n.slot s ≠ .closed → (n.accept s = none ↔ arrived.length = admitted.length)
  longest : n.slot s ≠ .closed → ∀ r n', n.accept s = some (r, n') →
    ∃ c, arrived[admitted.length]? = some c ∧
      r = .ok (n.slots.length, Descriptor.peer c.address.cid c.address.port)
  room : n.slot s ≠ .closed → ∀ t bound target, n.slot t = Slot.ofCaller bound →
    target.endpoint = own.endpoint →
    (bound = none → ∃ port, HandedOut port ∧ n.registry.has ⟨n.cid, port⟩ = false) →
    ∃ n', n.connect t target =
      some (if arrived.length < admitted.length + max 1 b.toNat then .ok ()
        else .error (.plain .connectionRefused), n')

/-- Connections are accepted in the order in which they were asked for, none twice, and each with
the address that its caller had then; its two ends receive what the other sends. No more wait than
a listener has places. -/
theorem arrivals_of_run {cid b : UInt32} {m : Network} (h : Run (ofCid cid) tr n)
    (hown : m.slot s = .bound own) (hb : (m, .answered (.listen s b) (.ok ())) ∈ tr)
    (harr : tr.filterMap (arrival? s) = arrived)
    (hadm : tr.filterMap (admissionAt? s) = admitted) :
    Admits tr n s own b arrived admitted := by
  subst harr hadm
  have ho := owned_of_run h (owned_ofCid cid)
  have hserve := serving_of_run h hown hb
  have hlive (hopen : n.slot s ≠ .closed) := hserve.resolve_right fun hs => hopen hs.closed
  constructor
  case arrives =>
    intro k t target q hm hl ht
    obtain ⟨-, k', -, -, -, hstep, -⟩ := h.of_mem hm
    obtain ⟨address, ha, -⟩ := exists_arrival hstep hl rfl ht
    exact ⟨_, List.mem_filterMap.mpr ⟨_, hm, ha⟩, rfl⟩
  case accepted =>
    intro k i peer hm
    obtain ⟨-, k', -, -, -, hstep, -⟩ := h.of_mem hm
    obtain ⟨a, ha⟩ := exists_admission hstep rfl rfl
    obtain ⟨he, -⟩ := of_admission? hstep (Option.filter_eq_some_iff.mp ha).1
    cases he
    exact ⟨a, List.mem_filterMap.mpr ⟨_, hm, ha⟩, rfl, rfl⟩
  case once => exact (nodup_arrivals h).1
  case bounded =>
    rcases hserve with ⟨q, hs⟩ | hs
    · exact hs.length_le
    · exact hs.length_le
  case joined =>
    intro i a hi
    have ha := List.mem_of_getElem? hi
    have hx : (∃ c, (tr.filterMap (arrival? s))[i]? = some c ∧ c.ticket = a.ticket) ∧
        a.own.endpoint = own.endpoint := by
      rcases hserve with ⟨q, hs⟩ | hs
      · exact ⟨exists_arrival_of_admitted ⟨_, hs.order.symm⟩ hi, hs.home a ha⟩
      · exact ⟨exists_arrival_of_admitted hs.order hi, hs.home a ha⟩
    obtain ⟨⟨c, hc, ht⟩, hhome⟩ := hx
    exact ⟨c, hc, joined_of_run h (List.mem_of_getElem? hc) ha ht hhome⟩
  case waits =>
    intro hopen
    obtain ⟨q, hs⟩ := hlive hopen
    rw [accept_eq_none_iff ho hs.listening, ← List.length_eq_zero_iff, hs.length_arrived]
    omega
  case longest =>
    intro hopen r n'
    obtain ⟨q, hs⟩ := hlive hopen
    exact hs.accept_of_waiting ho
  case room =>
    intro hopen t bound target ht he hf
    obtain ⟨q, hs⟩ := hlive hopen
    simp only [hs.length_arrived, Nat.add_lt_add_iff_left]
    exact connect_of_listening ho hs.listening hs.places ht he hf

/-- A listener with one place and two callers. The second is refused, the first is accepted, and
then the place is free. -/
theorem arrivals_of_refusing_run :
    ∃ tr n, Run (ofCid 3) tr n ∧
      tr.filterMap (arrival? 0) = [⟨1, Descriptor.local 3 40000, 0⟩] ∧
      tr.filterMap (admissionAt? 0) =
        [⟨0, 3, Descriptor.local 3 1234, Descriptor.peer 3 40000, 0⟩] ∧
      n.accept 0 = none ∧
      ∃ n', n.connect 2 (Descriptor.remote 3 1234) = some (.ok (), n') := by
  have h := Run.nil (n := ofCid 3)
    |>.snoc (.call (q := .socket) rfl)
    |>.snoc (.call (q := .bind 0 (Descriptor.bind 3 1234)) rfl)
    |>.snoc (.call (q := .listen 0 0) rfl)
    |>.snoc (.call (q := .socket) rfl)
    |>.snoc (.call (q := .connect 1 (Descriptor.remote 3 1234)) rfl)
    |>.snoc (.call (q := .socket) rfl)
    |>.snoc (.call (r := .error (.plain .connectionRefused))
      (q := .connect 2 (Descriptor.remote 3 1234)) rfl)
    |>.snoc (.call (q := .accept 0) rfl)
  have harr := arrivals_of_run (s := 0) (b := 0) h rfl
    (.tail _ (.tail _ (.head _))) rfl rfl
  refine ⟨_, _, h, rfl, rfl, (harr.waits (by decide)).mpr rfl, ?_⟩
  exact harr.room (by decide) 2 none (Descriptor.remote 3 1234) rfl rfl
    fun _ => ⟨40002, by unfold HandedOut; decide, rfl⟩

end Network
end Handoff.Loopback
