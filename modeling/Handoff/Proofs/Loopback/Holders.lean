import Handoff.Proofs.Loopback.Frame

/-!
Who holds an end of a connection through a whole run. An end has one socket at most in all of a
run, and a socket one end at most, so that what happens at an end is what its socket does.
-/
namespace Handoff.Loopback.Network

variable {n n' m : Network} {e : Event} {tr : List Moment} {s t : Nat} {x y : Nat × Side}

/-! ### Parts of a run -/

/-- A run at one of its moments: before it, the step that was taken, and from there on. -/
theorem Run.split {tr₁ tr₂ : List Moment} (h : Run n (tr₁ ++ (m, e) :: tr₂) n') :
    ∃ m', Run n tr₁ m ∧ Step m e m' ∧ Run m' tr₂ n' := by
  generalize htr : tr₁ ++ (m, e) :: tr₂ = tr at h
  induction h generalizing tr₂ with
  | nil => simp at htr
  | @snoc tr k k' e' h hs ih =>
    rcases List.eq_nil_or_concat tr₂ with rfl | ⟨tr₃, x, rfl⟩
    · obtain ⟨rfl, hx⟩ := List.append_inj' htr rfl
      cases hx
      exact ⟨k', h, hs, .nil⟩
    · rw [List.concat_eq_append, ← List.cons_append, ← List.append_assoc] at htr
      obtain ⟨hpre, hx⟩ := List.append_inj' htr rfl
      cases hx
      obtain ⟨m', h1, h2, h3⟩ := ih hpre
      rw [List.concat_eq_append]
      exact ⟨m', h1, h2, h3.snoc hs⟩

/-- A run in which something happened. -/
theorem Run.of_mem (h : Run n tr n') (hm : (m, e) ∈ tr) :
    ∃ tr₁ m' tr₂, tr = tr₁ ++ (m, e) :: tr₂ ∧ Run n tr₁ m ∧ Step m e m' ∧ Run m' tr₂ n' := by
  obtain ⟨tr₁, tr₂, rfl⟩ := List.append_of_mem hm
  obtain ⟨m', h1, h2, h3⟩ := h.split
  exact ⟨tr₁, m', tr₂, rfl, h1, h2, h3⟩

/-- The networks that a run goes through. -/
def visited (tr : List Moment) (n : Network) : List Network := tr.map Prod.fst ++ [n]

theorem mem_visited_of_mem (hm : (m, e) ∈ tr) : m ∈ visited tr n :=
  List.mem_append_left _ (List.mem_map.mpr ⟨_, hm, rfl⟩)

theorem mem_visited_last (tr : List Moment) (n : Network) : n ∈ visited tr n :=
  List.mem_append_right _ (List.mem_singleton_self n)

theorem visited_snoc (tr : List Moment) (n n' : Network) (e : Event) :
    visited (tr ++ [(n, e)]) n' = visited tr n ++ [n'] := by simp [visited]

/-- A run goes on from every network that it goes through. -/
theorem Run.from_visited (h : Run n tr n') (hm : m ∈ visited tr n') :
    (∃ tr', Run n tr' m) ∧ ∃ tr', Run m tr' n' := by
  induction h with
  | nil =>
    cases List.mem_singleton.mp (by simpa [visited] using hm)
    exact ⟨⟨[], .nil⟩, [], .nil⟩
  | snoc h hs ih =>
    rw [visited_snoc] at hm
    rcases List.mem_append.mp hm with hm | hm
    · obtain ⟨hbefore, tr', hafter⟩ := ih hm
      exact ⟨hbefore, _, hafter.snoc hs⟩
    · cases List.mem_singleton.mp hm
      exact ⟨⟨_, h.snoc hs⟩, [], .nil⟩

/-- Of two networks that a run goes through one comes first. -/
theorem Run.between {k : Network} (h : Run n tr n') (hm : m ∈ visited tr n')
    (hk : k ∈ visited tr n') : (∃ tr', Run m tr' k) ∨ ∃ tr', Run k tr' m := by
  induction h with
  | nil =>
    cases List.mem_singleton.mp (by simpa [visited] using hm)
    cases List.mem_singleton.mp (by simpa [visited] using hk)
    exact .inl ⟨[], .nil⟩
  | snoc h hs ih =>
    have hrun := h.snoc hs
    have hm' := (hrun.from_visited hm).2
    have hk' := (hrun.from_visited hk).2
    rw [visited_snoc] at hm hk
    rcases List.mem_append.mp hm with hm | hm
    · rcases List.mem_append.mp hk with hk | hk
      · exact ih hm hk
      · cases List.mem_singleton.mp hk
        exact .inl hm'
    · cases List.mem_singleton.mp hm
      exact .inr hk'

/-- What follows a step starts with the network after it. -/
theorem Run.visits_next {tr₁ tr₂ : List Moment} (h : Run m tr₂ n') (k : Network) (e : Event) :
    m ∈ visited (tr₁ ++ (k, e) :: tr₂) n' := by
  have hm : m ∈ visited tr₂ n' := by
    induction h with
    | nil => exact mem_visited_last [] m
    | snoc _ _ ih =>
      rw [visited_snoc]
      exact List.mem_append_left _ ih
  rw [visited, List.map_append, List.append_assoc, List.map_cons]
  exact List.mem_append_right _ (List.mem_cons_of_mem _ hm)

/-! ### Ends -/

/-- A socket that listens or is connected stays as it is until it is given up. -/
theorem slot_of_settled (h : Change n e n') (hd : e ≠ .dropped s) (hl : s < n.slots.length)
    (hs : ∀ bound, n.slot s ≠ Slot.ofCaller bound) : n'.slot s = n.slot s := by
  by_cases he : e.subject? = some s
  · cases h with
    | failed _ _ => rfl
    | told _ => rfl
    | made => simp [Event.subject?] at he
    | bound hb _ _ _ =>
      cases he
      exact absurd hb (hs none)
    | @listening _ own _ hb =>
      cases he
      exact absurd hb (hs (some own))
    | accepted _ _ _ => rw [slot_of_slots_append rfl, if_neg (Nat.ne_of_lt hl)]
    | connected hb _ _ _ =>
      cases he
      exact absurd hb (hs _)
    | crowded _ _ _ => rfl
    | sent _ _ _ => rfl
    | received _ _ _ => rfl
    | shut _ => rfl
    | dropped k =>
      cases he
      exact absurd rfl hd
  · exact slot_frame h hl he

theorem settled_of_change (h : Change n e n') (hl : s < n.slots.length)
    (hs : ∀ bound, n.slot s ≠ Slot.ofCaller bound) :
    n'.slot s = n.slot s ∨ n'.slot s = .closed := by
  by_cases hd : e = .dropped s
  · subst hd
    cases h
    exact .inr (by rw [slot_drop, if_pos rfl])
  · exact .inl (slot_of_settled h hd hl hs)

theorem closed_of_change (h : Change n e n') (hl : s < n.slots.length) (hs : n.slot s = .closed) :
    n'.slot s = .closed := by
  have hc (bound : Option Descriptor) : n.slot s ≠ Slot.ofCaller bound := by
    rw [hs]
    exact (Slot.ofCaller_ne_closed bound).symm
  rcases settled_of_change h hl hc with h | h
  · exact h.trans hs
  · exact h

theorem settled_of_run (h : Run n tr n') (hl : s < n.slots.length)
    (hs : ∀ bound, n.slot s ≠ Slot.ofCaller bound) :
    s < n'.slots.length ∧ (n'.slot s = n.slot s ∨ n'.slot s = .closed) := by
  induction h with
  | nil => exact ⟨hl, .inl rfl⟩
  | snoc _ hstep ih =>
    have hc := change_of_step hstep
    obtain ⟨hl, ih⟩ := ih
    refine ⟨Nat.lt_of_lt_of_le hl (length_slots_le hc), ?_⟩
    rcases ih with ih | ih
    · rw [← ih] at hs ⊢
      exact settled_of_change hc hl hs
    · exact .inr (closed_of_change hc hl ih)

/-- A socket keeps its end until it is given up. -/
theorem end?_of_change (h : Change n e n') (hd : e ≠ .dropped s) (hs : (n.slot s).end? = some x) :
    (n'.slot s).end? = some x := by
  obtain ⟨own, hslot⟩ := slot_of_end? hs
  have hc (bound : Option Descriptor) : n.slot s ≠ Slot.ofCaller bound := by
    rw [hslot]
    exact Slot.connected_ne_ofCaller own _ _ bound
  rw [slot_of_settled h hd (lt_of_slot hslot (by simp)) hc]
  exact hs

theorem waitingIn_drop (n : Network) (s q : Nat) :
    (n.drop s).waitingIn q = if (n.slot s).queue? = some q then [] else n.waitingIn q := by
  cases hs : (n.slot s).queue? with
  | none =>
    have hq : (n.drop s).queues = n.queues := by rw [drop_queues, hs]
    rw [if_neg (by simp)]
    exact waitingIn_of_queues (by rw [hq])
  | some k =>
    have hq : (n.drop s).queues = n.queues.modify k Queue.close := by rw [drop_queues, hs]
    by_cases hk : k = q
    · subst hk
      rw [if_pos rfl, waitingIn, hq, List.getElem?_modify_eq]
      cases n.queues[k]? <;> rfl
    · rw [if_neg (by simpa using hk)]
      exact waitingIn_of_queues (by rw [hq, List.getElem?_modify_ne _ _ hk])

/-- Whoever gives an end up was its holder, or the listener whose queue it was in. -/
theorem yields_iff {c : Nat} {side : Side} :
    n.yields s c side = true ↔ (n.slot s).end? = some (c, side) ∨
      side = .callee ∧ ∃ q, (n.slot s).queue? = some q ∧ ∃ p ∈ n.waitingIn q, p.connection = c := by
  unfold yields
  cases n.slot s <;> simp [Slot.end?, Slot.queue?]

/-- An end that is given up is held by nobody. -/
theorem not_mem_ends_of_yields {c : Nat} {side : Side} (hw : Wired n)
    (h : n.yields s c side = true) : (c, side) ∉ (n.drop s).ends := by
  intro hm
  rcases yields_iff.mp h with hs | ⟨rfl, q, hq, p, hp, rfl⟩
  · rcases mem_ends_iff.mp hm with ⟨t, ht⟩ | ⟨q, p, hp, he⟩
    · rw [slot_drop] at ht
      split at ht
      · simp [Slot.end?] at ht
      · rename_i hts
        exact hts (hw.holder_unique ht hs)
    · rw [waitingIn_drop] at hp
      split at hp
      · simp at hp
      · exact hw.not_waiting hs hp he
  · rcases mem_ends_iff.mp hm with ⟨t, ht⟩ | ⟨q', p', hp', he⟩
    · rw [slot_drop] at ht
      split at ht
      · simp [Slot.end?] at ht
      · exact hw.not_waiting ht hp rfl
    · rw [waitingIn_drop] at hp'
      split at hp'
      · simp at hp'
      · rename_i hne
        have hqq : q = q' := hw.queue_unique hp hp' (Prod.mk.inj he).1.symm
        exact hne (hqq ▸ hq)

/-- An end that nobody holds any more is never held again. -/
theorem not_mem_ends_of_change (h : Change n e n') (hl : x.1 < n.connections.length)
    (hx : x ∉ n.ends) : x ∉ n'.ends := by
  intro hm
  by_cases hd : ∀ t, e ≠ .dropped t
  · rcases ends_of_change h hd with ⟨hp, -⟩ | ⟨hp, -⟩
    · exact hx (hp.mem_iff.mp hm)
    · rcases List.mem_cons.mp (hp.mem_iff.mp hm) with rfl | hm
      · exact Nat.lt_irrefl _ hl
      rcases List.mem_cons.mp hm with rfl | hm
      · exact Nat.lt_irrefl _ hl
      · exact hx hm
  · simp only [not_forall, not_not] at hd
    obtain ⟨t, rfl⟩ := hd
    cases h
    obtain ⟨gone, hg⟩ := ends_of_drop n t
    exact hx (hg.mem_iff.mp (List.mem_append_right _ hm))

/-- An end that a socket has had and that nobody will hold again. -/
structure Over (n : Network) (s : Nat) (x : Nat × Side) : Prop where
  closed : n.slot s = .closed
  old : s < n.slots.length
  gone : x ∉ n.ends
  made : x.1 < n.connections.length

theorem Over.step (h : Over n s x) (hc : Change n e n') : Over n' s x where
  closed := closed_of_change hc h.old h.closed
  old := Nat.lt_of_lt_of_le h.old (length_slots_le hc)
  gone := not_mem_ends_of_change hc h.made h.gone
  made := Nat.lt_of_lt_of_le h.made (length_connections_le hc)

/-- Whoever has held an end holds it still, or it is over with both. -/
theorem end?_of_run (h : Run n tr n') (hw : Wired n) (hs : (n.slot s).end? = some x) :
    (n'.slot s).end? = some x ∨ Over n' s x := by
  induction h with
  | nil => exact .inl hs
  | @snoc tr m k e hr hstep ih =>
    have hc := change_of_step hstep
    rcases ih with ih | ih
    · by_cases hd : e = .dropped s
      · subst hd
        cases hc
        have hwm := wired_of_run hr hw
        obtain ⟨own, hslot⟩ := slot_of_end? ih
        have hl := lt_of_slot hslot (by simp)
        refine .inr ⟨by rw [slot_drop, if_pos rfl], by rwa [drop_slots, List.length_set], ?_, ?_⟩
        · exact not_mem_ends_of_yields hwm (yields_iff.mpr (.inl ih))
        · rw [drop_connections, length_severed]
          exact hwm.made x (mem_ends_of_slot ih)
      · exact .inl (end?_of_change hc hd ih)
    · exact .inr (ih.step hc)

theorem holder_iff_of_run (h : Run n tr n') (hw : Wired n) (hs : (n.slot s).end? = some x)
    (ht : (n'.slot t).end? = some y) : s = t ↔ x = y := by
  rcases end?_of_run h hw hs with hs | hs
  · constructor
    · rintro rfl
      exact Option.some.inj (hs.symm.trans ht)
    · rintro rfl
      exact (wired_of_run h hw).holder_unique hs ht
  · constructor
    · rintro rfl
      rw [hs.closed] at ht
      simp [Slot.end?] at ht
    · rintro rfl
      exact absurd (mem_ends_of_slot ht) hs.gone

/-- In all of a run an end has one socket, and a socket one end. -/
theorem holder_iff {k : Network} (h : Run n tr n') (hw : Wired n) (hm : m ∈ visited tr n')
    (hk : k ∈ visited tr n') (hs : (m.slot s).end? = some x) (ht : (k.slot t).end? = some y) :
    s = t ↔ x = y := by
  have hwired {j : Network} (hj : j ∈ visited tr n') : Wired j := by
    obtain ⟨⟨tr', hr⟩, -⟩ := h.from_visited hj
    exact wired_of_run hr hw
  rcases h.between hm hk with ⟨tr', hr⟩ | ⟨tr', hr⟩
  · exact holder_iff_of_run hr (hwired hm) hs ht
  · have he := holder_iff_of_run hr (hwired hk) ht hs
    constructor
    · intro hst
      exact (he.mp hst.symm).symm
    · intro hxy
      exact (he.mpr hxy.symm).symm

/-! ### What a socket sends and receives -/

namespace Moment

/-- The bytes that a socket sends. -/
def sentBy (s : Nat) : Moment → List UInt8
  | (_, .answered (.send t data) (.ok _)) => if t = s then data else []
  | _ => []

/-- The bytes that a socket receives. -/
def receivedBy (s : Nat) : Moment → List UInt8
  | (_, .answered (.recv t _) (.ok bytes)) => if t = s then bytes else []
  | _ => []

end Moment

open Moment

theorem end?_of_send {data : List UInt8} {k : Nat} (h : n.send s data = some (.ok k, n')) :
    ∃ x, (n.slot s).end? = some x := by
  unfold send at h
  cases hs : n.slot s with
  | connected own c side => exact ⟨(c, side), rfl⟩
  | fresh | bound _ | listening _ _ | closed => simp [hs] at h

theorem end?_of_recv {room : Nat} {bytes : List UInt8} (h : n.recv s room = some (.ok bytes, n')) :
    ∃ x, (n.slot s).end? = some x := by
  unfold recv at h
  cases hs : n.slot s with
  | connected own c side => exact ⟨(c, side), rfl⟩
  | fresh | bound _ | listening _ _ | closed => simp [hs] at h

/-- What the holder of an end sends goes to the other end, and nothing else does. -/
theorem sentBy_eq {c : Nat} {side : Side} (h : Run n tr n') (hw : Wired n)
    (hk : m ∈ visited tr n') (hs : (m.slot s).end? = some (c, side)) :
    tr.flatMap (sentBy s) = tr.flatMap (sentTo c side.other) := by
  refine List.flatMap_congr ?_
  rintro ⟨k, e⟩ hm
  obtain ⟨-, k', -, -, -, hstep, -⟩ := h.of_mem hm
  cases e with
  | dropped t => rfl
  | answered q r =>
    cases q with
    | send t data =>
      cases r with
      | error e => rfl
      | ok j =>
        obtain ⟨x, hx⟩ := end?_of_send hstep.answer
        have hi := holder_iff h hw (mem_visited_of_mem hm) hk hx hs
        simp only [sentBy, sentTo, hx, other_other, Option.some.injEq, hi]
    | socket | bind | listen | accept | connect | recv | shutdown | localAddr => rfl

/-- What the holder of an end receives is what is received there. -/
theorem receivedBy_eq {c : Nat} {side : Side} (h : Run n tr n') (hw : Wired n)
    (hk : m ∈ visited tr n') (hs : (m.slot s).end? = some (c, side)) :
    tr.flatMap (receivedBy s) = tr.flatMap (receivedAt c side) := by
  refine List.flatMap_congr ?_
  rintro ⟨k, e⟩ hm
  obtain ⟨-, k', -, -, -, hstep, -⟩ := h.of_mem hm
  cases e with
  | dropped t => rfl
  | answered q r =>
    cases q with
    | recv t room =>
      cases r with
      | error e => rfl
      | ok bytes =>
        obtain ⟨x, hx⟩ := end?_of_recv hstep.answer
        have hi := holder_iff h hw (mem_visited_of_mem hm) hk hx hs
        simp only [receivedBy, receivedAt, hx, Option.some.injEq, hi]
    | socket | bind | listen | accept | connect | send | shutdown | localAddr => rfl

end Handoff.Loopback.Network
