import Handoff.Proofs.Loopback.Onward

/-!
What every race keeps, whatever comes in between the sections of its calls: the registry lists what
the sockets and the calls under way hold; a call finds its socket as it left it; and an end of a
connection that nobody holds is closed.
-/
namespace Handoff.Loopback

namespace Race

open Network

variable {R S : Race} {s : Nat}

/-- An end of a connection that is held, or is closed, or has still to stop reading. -/
def Tended (R : Race) (c : Nat) (side : Side) : Prop :=
  (c, side) ∈ R.network.ends ∨ (R.network.pipe c side.other).writeClosed = true ∧
    ((R.network.pipe c side).readClosed = true ∨ ∃ s own, R.calls s = some (.hanging own c side))

/-- What holds in every race. The registry lists what the sockets and the calls under way hold;
every queue that is open is listened on; every end is held once at most; calls find what they need;
nobody has sent to a caller that waits; and an end that nobody holds is closed. -/
structure Sound (R : Race) : Prop where
  lists : R.network.registry.Lists R.holding?
  attended : Attended R.network
  wired : Wired R.network
  fits : ∀ s call, R.calls s = some call → call.Fits R.network s
  unheard : ∀ q, ∀ p ∈ R.network.waitingIn q, (R.network.pipe p.connection .caller).buffer = []
  tended : ∀ c side, c < R.network.connections.length → R.Tended c side

theorem sound_ofCid (cid : UInt32) : Sound (idle (ofCid cid)) where
  lists := by
    refine ⟨List.nodup_nil, ?_, ?_, ?_⟩ <;> simp [idle, ofCid, holding?, Slot.holding?, slot]
  attended := by
    refine ⟨?_, ?_, ?_⟩ <;> simp [idle, ofCid, Slot.queue?, slot]
  wired := wired_ofCid cid
  fits := by simp [idle]
  unheard := by simp [idle, ofCid, waitingIn]
  tended := by simp [idle, ofCid]

/-! ### The registry -/

/-- What a socket holds after a section, or what is left of its call. -/
def restHolding? (s : Nat) (p : Progress) (n : Network) : Option (Endpoint × Option Nat) :=
  match p.rest? with
  | some rest => rest.holding?
  | none => (n.slot s).holding?

section Registered

variable {n : Network} {p : Progress} {call : Option Call}

/-- Only what the socket of the section holds has changed. -/
def Leaves (R : Race) (s : Nat) (p : Progress) (n : Network) : Prop :=
  ∀ t, (R.put s (p, n)).holding? t = if t = s then restHolding? s p n else R.holding? t

theorem leaves_of_section (h : Section R.network s call p n) : R.Leaves s p n := by
  intro t
  by_cases ht : t = s
  · subst ht
    rw [if_pos rfl, holding?, put_calls_same]
    rfl
  · rw [if_neg ht, holding?, put_calls_other _ _ ht, holding?]
    have hslot : (R.put s (p, n)).network.slot t = R.network.slot t := slot_frame_section h ht
    rw [hslot]

/-- A section that neither registers nor gives back anything. -/
theorem lists_of_same (h : R.network.registry.Lists R.holding?) (hput : R.Leaves s p n)
    (hr : n.registry = R.network.registry)
    (hx : R.holding? s = restHolding? s p n) : n.registry.Lists (R.put s (p, n)).holding? := by
  have he : (R.put s (p, n)).holding? = R.holding? := by
    funext t
    rw [hput]
    split
    · rename_i ht
      rw [ht, hx]
    · rfl
  rw [hr, he]
  exact h

/-- A section that gives back the endpoint that its socket held. -/
theorem lists_of_returned {e : Endpoint} {q : Option Nat}
    (h : R.network.registry.Lists R.holding?) (hput : R.Leaves s p n)
    (hr : n.registry = R.network.registry.erase e)
    (hx : R.holding? s = some (e, q)) (hn : restHolding? s p n = none) :
    n.registry.Lists (R.put s (p, n)).holding? := by
  rw [hr]
  refine h.erase hx ?_
  intro t
  rw [hput, hn]

theorem lists_of_dropped (h : R.network.registry.Lists R.holding?)
    (hput : R.Leaves s .gone (R.network.drop s))
    (hold : R.holding? s = (R.network.slot s).holding?) :
    (R.network.drop s).registry.Lists (R.put s (.gone, R.network.drop s)).holding? := by
  have hclosed : restHolding? s .gone (R.network.drop s) = none := by
    simp only [restHolding?, Progress.rest?]
    rw [slot_drop, if_pos rfl]
    rfl
  cases hx : (R.network.slot s).holding? with
  | none =>
    refine lists_of_same h hput ?_ (hold.trans (hx.trans hclosed.symm))
    rw [drop_registry, hx]
  | some x =>
    obtain ⟨e, q⟩ := x
    refine lists_of_returned h hput ?_ (hold.trans hx) hclosed
    rw [drop_registry, hx]

theorem lists_of_section (h : R.network.registry.Lists R.holding?)
    (hs : Section R.network s (R.calls s) p n)
    (hf : ∀ call, R.calls s = some call → call.Fits R.network s) :
    n.registry.Lists (R.put s (p, n)).holding? := by
  have hput := leaves_of_section hs
  have hold : R.holding? s =
      match R.calls s with
      | some call => call.holding?
      | none => (R.network.slot s).holding? := rfl
  generalize R.calls s = call at hs hf hold
  cases hs with
  | rejected => exact lists_of_same h hput rfl hold
  | @routed bound own target q _ hslot hr =>
    rw [hslot] at hold
    obtain ⟨-, hm, ⟨rfl, rfl⟩ | ⟨rfl, port, ha, rfl, hreg⟩⟩ := of_route hr
    · exact lists_of_same h hput rfl hold
    · rw [hreg]
      refine h.put (.inl ⟨hold, (of_allocate?_eq_some ha).1⟩) none ?_
      intro t
      rw [hput]
      rfl
  | @joined bound own target q queue hq ht =>
    have hl := lt_of_slot (hf _ rfl).1 (Slot.ofCaller_ne_closed bound)
    refine lists_of_same h hput rfl (hold.trans ?_)
    simp only [restHolding?, Progress.rest?]
    rw [slot_of_slots_set rfl hl, if_pos rfl]
    rfl
  | @turnedAway bound own target q hq =>
    obtain ⟨hslot, hown, -⟩ := hf _ rfl
    refine lists_of_same h hput rfl (hold.trans ?_)
    cases bound with
    | none => rfl
    | some b =>
      simp only [restHolding?, Call.afterRefusal, Progress.rest?]
      rw [hslot, ← hown b rfl]
      rfl
  | refused own =>
    have hslot : R.network.slot s = .fresh := hf _ rfl
    refine lists_of_returned h hput rfl hold ?_
    simp only [restHolding?, Progress.rest?]
    rw [slot_release, hslot]
    rfl
  | dropped => exact lists_of_dropped h hput hold
  | deserted hslot =>
    refine lists_of_same h hput ?_ ?_
    · rw [closeQueue_eq]
      rfl
    · rw [hold, hslot]
      rfl
  | @hungUp own c side hslot =>
    refine lists_of_same h hput rfl ?_
    rw [hold, hslot]
    cases side <;> rfl
  | deafened own c side =>
    have hslot := (hf _ rfl).1
    refine lists_of_same h hput rfl (hold.trans ?_)
    cases side with
    | caller => rfl
    | callee =>
      simp only [restHolding?, Call.afterHanging, Progress.rest?]
      rw [slot_modifyConnection, hslot]
      rfl
  | left own q =>
    have hslot := (hf _ rfl).1
    refine lists_of_returned h hput rfl hold ?_
    simp only [restHolding?, Progress.rest?]
    rw [slot_release, hslot]
    rfl

end Registered

theorem lists_of_change {n : Network} {e : Network.Event} (h : R.network.registry.Lists R.holding?)
    (hc : Change R.network e n) (he : e.atOnce = true)
    (hi : ∀ s, e.subject? = some s → R.calls s = none) :
    n.registry.Lists (⟨n, R.calls⟩ : Race).holding? := by
  have hsame {m : Network} (hr : m.registry = R.network.registry)
      (hx : ∀ k, (m.slot k).holding? = (R.network.slot k).holding?) :
      m.registry.Lists (⟨m, R.calls⟩ : Race).holding? := by
    have he : (⟨m, R.calls⟩ : Race).holding? = R.holding? := by
      funext k
      simp only [holding?, hx]
    rw [hr, he]
    exact h
  -- the socket that is set is in no other call
  have hset {m : Network} {s : Nat} {t : Slot} {x : Endpoint × Option Nat}
      (hcall : R.calls s = none) (hm : m.slots = R.network.slots.set s t)
      (hs : s < R.network.slots.length) (ht : t.holding? = some x) (k : Nat) :
      (⟨m, R.calls⟩ : Race).holding? k = if k = s then some x else R.holding? k := by
    simp only [holding?, slot_of_slots_set hm hs]
    by_cases hk : k = s
    · rw [hk, hcall, if_pos rfl, if_pos rfl, ht]
    · rw [if_neg hk, if_neg hk]
  cases hc with
  | failed | told | sent | received | shut => exact hsame rfl fun _ => rfl
  | made => exact hsame rfl (slot_map_of_append Slot.holding? rfl rfl)
  | bound hs _ _ hf =>
    have hcall := hi _ rfl
    refine h.put (.inl ⟨?_, hf⟩) none (hset hcall rfl (lt_of_slot hs (by simp)) rfl)
    rw [holding?, hcall, hs]
    rfl
  | listening hs =>
    have hcall := hi _ rfl
    refine h.put (.inr ⟨none, ?_⟩) _ (hset hcall rfl (lt_of_slot hs (by simp)) rfl)
    rw [holding?, hcall, hs]
    rfl
  | accepted => exact hsame rfl (slot_map_of_append Slot.holding? rfl rfl)
  | connected | crowded | dropped => simp [Network.Event.atOnce] at he

/-! ### Calls under way -/

theorem fits_of_change {n : Network} {e : Network.Event} {t : Nat} {call : Call}
    (hw : Wired R.network) (hf : call.Fits R.network t) (ht : R.calls t = some call)
    (hc : Change R.network e n) (hi : ∀ s, e.subject? = some s → R.calls s = none) :
    call.Fits n t := by
  have hl : t < R.network.slots.length := by
    cases call with
    | joining bound _ _ _ => exact lt_of_slot hf.1 (Slot.ofCaller_ne_closed bound)
    | refused _ => exact lt_of_slot hf (by simp)
    | hanging _ _ _ => exact hf.2.1
    | leaving _ _ => exact hf.2.1
  refine fits_frame hf (onward_of_change hw hc) (slot_frame hc hl ?_)
  intro hs
  simp [hi t hs] at ht

/-- Whoever is registered with a queue listens on it, or did and is leaving. -/
theorem Sound.listener (h : Sound R) {e : Endpoint} {q : Nat}
    (he : R.network.registry.queue? e = some q) :
    q < R.network.queues.length ∧ ∀ t d, R.network.slot t = .listening d q → d.endpoint = e := by
  obtain ⟨s, hs⟩ := h.lists.held e (some q) ((Registry.queue?_eq_some_iff _ _ _).mp he)
  unfold holding? at hs
  cases hcall : R.calls s with
  | none =>
    rw [hcall] at hs
    obtain ⟨own, hslot, rfl⟩ : ∃ own, R.network.slot s = .listening own q ∧ own.endpoint = e := by
      cases hslot : R.network.slot s with
      | listening own k =>
        rw [hslot] at hs
        cases hs
        exact ⟨own, rfl, rfl⟩
      | connected own c side => cases side <;> simp [hslot, Slot.holding?] at hs
      | fresh | bound own | closed => simp [hslot, Slot.holding?] at hs
    have hsq : (R.network.slot s).queue? = some q := by
      rw [hslot]
      rfl
    refine ⟨h.attended.lt hsq, ?_⟩
    intro t d ht
    have hts : t = s := h.attended.unique t s q (by rw [ht]; rfl) hsq
    rw [hts, hslot] at ht
    cases ht
    rfl
  | some call =>
    rw [hcall] at hs
    have hfits := h.fits s call hcall
    cases call with
    | leaving own k =>
      cases hs
      obtain ⟨-, -, hgone⟩ := hfits
      obtain ⟨hlt, hn⟩ := hgone q rfl
      exact ⟨hlt, fun t d ht => absurd ht (hn t d)⟩
    | hanging own c side => cases side <;> simp [Call.holding?] at hs
    | joining | refused => simp [Call.holding?] at hs

/-- What a section leaves of its call fits. -/
theorem fits_of_section {n : Network} {p : Progress} {call : Option Call} {rest : Call}
    (h : Sound R) (hs : Section R.network s call p n)
    (hf : ∀ call', call = some call' → call'.Fits R.network s) (hr : p.rest? = some rest) :
    rest.Fits n s := by
  cases hs with
  | rejected | joined | refused | dropped | left => simp [Progress.rest?] at hr
  | @routed bound own target q _ hslot hroute =>
    cases hr
    obtain ⟨hreg, hm, hbound⟩ := of_route hroute
    obtain ⟨hlt, hlisten⟩ := h.listener hreg
    rw [hm]
    refine ⟨hslot, ?_, hlt, hlisten⟩
    rintro b rfl
    rcases hbound with ⟨hb, -⟩ | ⟨hb, -⟩
    · exact Option.some.inj hb
    · simp at hb
  | @turnedAway bound own target q hq =>
    cases bound with
    | some b => simp [Call.afterRefusal, Progress.rest?] at hr
    | none =>
      cases hr
      exact (hf _ rfl).1
  | @deserted own q hslot =>
    cases hr
    have hl := lt_of_slot hslot (by simp)
    have hsq : (R.network.slot s).queue? = some q := by
      rw [hslot]
      rfl
    have hslots : ((R.network.closeQueue q).setSlot s .closed).slots =
        R.network.slots.set s .closed := by
      rw [closeQueue_eq]
      rfl
    refine ⟨?_, ?_, ?_⟩
    · rw [slot_of_slots_set hslots hl, if_pos rfl]
    · rwa [hslots, List.length_set]
    · intro k hk
      cases hk
      refine ⟨?_, ?_⟩
      · rw [closeQueue_eq]
        simpa [setSlot] using h.attended.lt hsq
      · intro t d ht
        rw [slot_of_slots_set hslots hl] at ht
        split at ht
        · simp at ht
        · rename_i hts
          exact hts (h.attended.unique t s q (by rw [ht]; rfl) hsq)
  | @hungUp own c side hslot =>
    cases hr
    have hl := lt_of_slot hslot (by simp)
    have hc := h.wired.made _ (mem_ends_of_slot (end?_of_slot hslot))
    refine ⟨?_, ?_, ?_, ?_⟩
    · rw [slot_of_slots_set rfl hl, if_pos rfl]
    · simpa [setSlot, modifyConnection] using hl
    · simpa [setSlot, modifyConnection] using hc
    · rw [pipe_shut rfl hc, other_other]
      simp [Pipe.closing]
  | deafened own c side =>
    cases side with
    | callee => simp [Call.afterHanging, Progress.rest?] at hr
    | caller =>
      cases hr
      obtain ⟨h1, h2, -⟩ := hf _ rfl
      exact ⟨h1, h2, by simp⟩

/-! ### Ends -/

/-- An end stays tended: it is held still, or what is closed stays closed, and the call that has
still to stop reading does so. -/
theorem Tended.keep {c : Nat} {side : Side} (h : R.Tended c side)
    (ho : Onward R.network S.network) (hend : (c, side) ∈ R.network.ends → S.Tended c side)
    (hcalls : ∀ s own, R.calls s = some (.hanging own c side) →
      S.calls s = some (.hanging own c side) ∨ (S.network.pipe c side).readClosed = true) :
    S.Tended c side := by
  rcases h with h | ⟨hw, hr⟩
  · exact hend h
  · refine .inr ⟨(ho.pipes c side.other).writeClosed hw, ?_⟩
    rcases hr with hr | ⟨s, own, hs⟩
    · exact .inl ((ho.pipes c side).readClosed hr)
    · rcases hcalls s own hs with hs | hr
      · exact .inr ⟨s, own, hs⟩
      · exact .inl hr

theorem tended_of_change {n : Network} {e : Network.Event} (h : Sound R)
    (hc : Change R.network e n) (he : e.atOnce = true) {c : Nat} {side : Side}
    (hl : c < n.connections.length) : Tended ⟨n, R.calls⟩ c side := by
  have hd := Event.ne_dropped_of_atOnce he
  have ho := onward_of_change h.wired hc
  rcases ends_of_change hc hd with ⟨hp, hlen⟩ | ⟨hp, hlen⟩
  · refine (h.tended c side (hlen ▸ hl)).keep ho ?_ fun s own hs => .inl hs
    exact fun hm => .inl (hp.mem_iff.mpr hm)
  · by_cases hx : c = R.network.connections.length
    · subst hx
      refine .inl (hp.mem_iff.mpr ?_)
      cases side <;> simp
    · refine (h.tended c side (by omega)).keep ho ?_ fun s own hs => .inl hs
      exact fun hm => .inl (hp.mem_iff.mpr (List.mem_cons_of_mem _ (List.mem_cons_of_mem _ hm)))

theorem tended_of_section {n : Network} {p : Progress} (h : Sound R)
    (hs : Section R.network s (R.calls s) p n) {c : Nat} {side : Side}
    (hl : c < n.connections.length) : (R.put s (p, n)).Tended c side := by
  have ho : Onward R.network (R.put s (p, n)).network := onward_of_section h.wired hs (h.fits s)
  have hcalls (t : Nat) (own : Descriptor) (ht : R.calls t = some (.hanging own c side)) :
      (R.put s (p, n)).calls t = some (.hanging own c side) ∨
        (n.pipe c side).readClosed = true := by
    by_cases hts : t = s
    · subst hts
      rw [ht] at hs
      have hc := (h.fits t _ ht).2.2.1
      cases hs
      refine .inr ?_
      rw [pipe_shut rfl hc]
      simp [Pipe.closing]
    · exact .inl ((put_calls_other R _ hts).trans ht)
  rcases ends_of_section h.wired hs (h.fits s) with ⟨he, hlen⟩ | ⟨hp, hlen⟩ | ⟨he, hlen, hgone⟩
  · refine (h.tended c side (hlen ▸ hl)).keep ho ?_ hcalls
    intro hm
    exact .inl (he ▸ hm)
  · by_cases hx : c = R.network.connections.length
    · subst hx
      refine .inl (hp.mem_iff.mpr ?_)
      cases side <;> simp
    · refine (h.tended c side (by omega)).keep ho ?_ hcalls
      exact fun hm => .inl (hp.mem_iff.mpr (List.mem_cons_of_mem _ (List.mem_cons_of_mem _ hm)))
  · refine (h.tended c side (hlen ▸ hl)).keep ho ?_ hcalls
    intro hm
    rcases mem_ends_drop (s := s) hm with hm | hy
    · exact .inl (he ▸ hm)
    · obtain ⟨hw, hr⟩ := hgone c side hy
      refine .inr ⟨hw, hr.imp_right ?_⟩
      rintro ⟨own, rfl⟩
      exact ⟨s, own, put_calls_same _ _ _⟩

theorem unheard_of {n : Network} (h : Sound R) (ho : Onward R.network n)
    (hp : ∀ q, ∀ p ∈ n.waitingIn q,
      p ∈ R.network.waitingIn q ∨ p.connection = R.network.connections.length) (q : Nat)
    (p : Pending) (hm : p ∈ n.waitingIn q) : (n.pipe p.connection .caller).buffer = [] := by
  rcases hp q p hm with hm | hnew
  · refine (ho.pipes _ _).buffer_eq_nil (h.unheard q p hm) ?_
    intro t ht
    exact h.wired.not_waiting ht hm rfl
  · refine (ho.pipes _ _).buffer_eq_nil ?_ ?_
    · rw [hnew, pipe, connection, List.getElem?_eq_none_iff.mpr (Nat.le_refl _)]
      rfl
    · intro t ht
      have hlt := h.wired.made _ (mem_ends_of_slot ht)
      rw [hnew] at hlt
      exact Nat.lt_irrefl _ hlt

/-- Every step of a race keeps it sound. -/
theorem Sound.step {e : Event} (h : Sound R) (hs : Step R e S) : Sound S := by
  rcases hs.cases with ⟨e', n, -, he, hi, hstep, rfl⟩ | ⟨s, p, n, -, hsec, rfl⟩
  · have hc := change_of_step hstep
    constructor
    · exact lists_of_change h.lists hc he hi
    · exact attended_of_change h.attended hc he
    · exact h.wired.step hc
    · intro t call ht
      exact fits_of_change h.wired (h.fits t call ht) ht hc hi
    · exact unheard_of h (onward_of_change h.wired hc) fun q p => mem_waitingIn_of_change hc
    · exact fun c side hl => tended_of_change h hc he hl
  · have hf := h.fits s
    have ho := onward_of_section h.wired hsec hf
    constructor
    · exact lists_of_section h.lists hsec hf
    · exact attended_of_section h.attended hsec hf
    · exact wired_of_section h.wired hsec hf
    · intro t call ht
      by_cases hts : t = s
      · subst hts
        rw [put_calls_same] at ht
        exact fits_of_section h hsec hf ht
      · rw [put_calls_other _ _ hts] at ht
        exact fits_frame (h.fits t call ht) ho (slot_frame_section hsec hts)
    · exact unheard_of h ho fun q p => mem_waitingIn_of_section hsec
    · exact fun c side hl => tended_of_section h hsec hl

theorem sound_of_run {tr : List Moment} (h : Run R tr S) (hs : Sound R) : Sound S :=
  h.keeps (fun _ _ _ hx => hx.step) hs

/-- With no call under way the registry lists the endpoints of the sockets that own one. -/
theorem Sound.registry_of_idle (h : Sound R) (hi : ∀ s, R.calls s = none) :
    R.network.registry.Lists fun s => (R.network.slot s).holding? := by
  have hh : R.holding? = fun s => (R.network.slot s).holding? := by
    funext s
    rw [holding?, hi]
  exact hh ▸ h.lists

/-- With no call under way an end that is not held is closed. -/
theorem Sound.end_of_idle (h : Sound R) (hi : ∀ s, R.calls s = none) {c : Nat}
    (hc : c < R.network.connections.length) (side : Side) : R.network.Held c side ∨
      (R.network.pipe c side).readClosed = true ∧
        (R.network.pipe c side.other).writeClosed = true := by
  rcases h.tended c side hc with hm | ⟨hw, hr | ⟨s, own, hs⟩⟩
  · exact .inl (h.attended.held hm)
  · exact .inr ⟨hr, hw⟩
  · simp [hi s] at hs

/-- A network that whole calls have led to is one that a race has, with no call under way. -/
theorem sound_of_network_run {cid : UInt32} {n : Network} {tr : List Network.Moment}
    (h : Network.Run (ofCid cid) tr n) : Sound (idle n) := by
  obtain ⟨_, hr⟩ := reaches_of_run h
  exact sound_of_run hr (sound_ofCid cid)

end Race
end Handoff.Loopback
