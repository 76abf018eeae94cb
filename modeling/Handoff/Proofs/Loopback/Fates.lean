import Handoff.Proofs.Loopback.Arrivals
import Handoff.Proofs.Loopback.Sound

/-!
What becomes of those who connect while listeners accept and go. The main statement is
`fates_of_race`: whoever is refused leaves no trace, and a connection that was asked for is waiting
in an open queue, was accepted once, or is cut off.
-/
namespace Handoff.Loopback

namespace Network

/-- A connection whose accepted end waits in a queue. -/
def Waits (n : Network) (c : Nat) : Prop := ∃ q, ∃ p ∈ n.waitingIn q, p.connection = c

/-- A connection whose caller can neither send nor receive any more. -/
def CutOff (n : Network) (c : Nat) : Prop :=
  (n.pipe c .caller).Spent ∧ (n.pipe c .callee).readClosed = true

/-- What can have become of a connection, by the number of times that it was accepted. -/
inductive Fate (n : Network) (c : Nat) : Nat → Prop where
  | waiting (hw : n.Waits c) : Fate n c 0
  | accepted (hw : ¬n.Waits c) : Fate n c 1
  | cutOff (hw : ¬n.Waits c) (hc : n.CutOff c) : Fate n c 0

end Network

namespace Race

open Network

variable {R S : Race} {e : Event} {c : Nat}

namespace Moment

def accepts (c : Nat) : Moment → Bool
  | (R, .atOnce e) => (Network.Moment.admission? (R.network, e)).any fun a => a.connection = c
  | _ => false

end Moment

open Moment

/-- What is accepted has waited, and is held from then on. -/
theorem of_accepts (hs : Step R e S) (ha : accepts c (R, e) = true) :
    R.network.Waits c ∧ ∃ k, (S.network.slot k).end? = some (c, .callee) := by
  cases hs with
  | atOnce he hi h =>
    rw [accepts, Option.any_eq_true] at ha
    obtain ⟨a, ha, hc⟩ := ha
    obtain ⟨-, hslot, own, q, p, rest, -, hw, -, -, -, ht⟩ := of_admission? h ha
    have hc : a.connection = c := by simpa using hc
    have hp : a.connection = p.connection := (Prod.mk.inj ht).2
    refine ⟨⟨q, p, ?_, hp.symm.trans hc⟩, a.socket, ?_⟩
    · rw [hw]
      exact List.mem_cons_self
    · rw [hslot, ← hc]
      rfl
  | connect | drop | proceed => simp [accepts] at ha

theorem not_waits_of_held {n : Network} {k : Nat} (hw : Wired n)
    (hk : (n.slot k).end? = some (c, .callee)) : ¬n.Waits c := by
  rintro ⟨q, p, hp, rfl⟩
  exact hw.not_waiting hk hp rfl

/-- Who waits waited before, or has come with a new connection. -/
theorem mem_waitingIn_of_step {q : Nat} {p : Pending} (hs : Step R e S)
    (hp : p ∈ S.network.waitingIn q) :
    p ∈ R.network.waitingIn q ∨ p.connection = R.network.connections.length := by
  rcases hs.cases with ⟨e', n, -, -, -, hstep, rfl⟩ | ⟨s, pr, n, -, hsec, rfl⟩
  · exact mem_waitingIn_of_change (change_of_step hstep) hp
  · exact mem_waitingIn_of_section hsec hp

theorem onward_of_step (h : Sound R) (hs : Step R e S) : Onward R.network S.network := by
  rcases hs.cases with ⟨e', n, -, -, -, hstep, rfl⟩ | ⟨s, p, n, -, hsec, rfl⟩
  · exact onward_of_change h.wired (change_of_step hstep)
  · exact onward_of_section h.wired hsec (h.fits s)

/-- Whoever waits goes on waiting through every section, or is cut off when the listener goes. -/
theorem waiting_of_section {n n' : Network} {s q : Nat} {call : Option Call} {pr : Progress}
    {p : Pending} (hw : Wired n) (h : Section n s call pr n') (ho : Onward n n')
    (hp : p ∈ n.waitingIn q) (hb : (n.pipe p.connection .caller).buffer = []) :
    p ∈ n'.waitingIn q ∨ n'.waitingIn q = [] ∧ n'.CutOff p.connection := by
  have hsame {m : Network} (hm : m.queues[q]? = n.queues[q]?) : p ∈ m.waitingIn q := by
    rw [waitingIn_of_queues hm]
    exact hp
  cases h with
  | rejected | turnedAway | refused | left | deafened | hungUp => exact .inl hp
  | routed _ hr => exact .inl (hsame (by rw [(of_route hr).2.1]))
  | @joined bound own target k queue hk ht =>
    refine .inl ?_
    by_cases hq : k = q
    · subst hq
      rw [waitingIn_of_getElem? hk] at hp
      have hlt := (List.getElem?_eq_some_iff.mp hk).1
      rw [waitingIn, List.getElem?_set_self hlt]
      exact List.mem_append_left _ hp
    · exact hsame (List.getElem?_set_ne hq)
  | dropped hq he => exact .inl (hsame (by rw [drop_queues, hq]))
  | @deserted own k hslot =>
    have hqueues : ((n.closeQueue k).setSlot s .closed).queues = n.queues.modify k Queue.close := by
      rw [closeQueue_eq]
      rfl
    by_cases hq : k = q
    · subst hq
      have hy : n.yields s p.connection .callee = true :=
        yields_iff.mpr (.inr ⟨rfl, k, by rw [hslot]; rfl, p, hp, rfl⟩)
      obtain ⟨hwrite, hread⟩ := closed_of_deserted hw hslot hy
      refine .inr ⟨?_, ⟨?_, .inl hwrite⟩, hread⟩
      · rw [waitingIn, hqueues, List.getElem?_modify_eq]
        cases n.queues[k]? <;> rfl
      · -- the accepted end has not sent anything, for nobody held it
        refine (ho.pipes _ _).buffer_eq_nil hb ?_
        intro t ht
        exact hw.not_waiting ht hp rfl
    · exact .inl (hsame (by rw [hqueues, List.getElem?_modify_ne _ _ hq]))

/-- Whoever waits goes on waiting, is accepted, or is cut off. -/
theorem waiting_of_step {q : Nat} {p : Pending} (h : Sound R) (hs : Step R e S)
    (hp : p ∈ R.network.waitingIn q) :
    p ∈ S.network.waitingIn q ∨ accepts p.connection (R, e) = true ∨
      S.network.waitingIn q = [] ∧ S.network.CutOff p.connection := by
  have ho := onward_of_step h hs
  rcases hs.cases with ⟨e', n, rfl, he, -, hstep, rfl⟩ | ⟨s, pr, n, -, hsec, rfl⟩
  · cases ha : Network.Moment.admission? (R.network, e') with
    | none =>
      have hw := waitingIn_of_step hstep ha (Event.connects?_of_atOnce he)
        (Event.ne_dropped_of_atOnce he) q
      exact .inl (hw ▸ hp)
    | some a =>
      obtain ⟨-, -, own, k, first, rest, -, hw, hrest, hother, -, ht⟩ := of_admission? hstep ha
      by_cases hq : q = k
      · subst hq
        rw [hw] at hp
        rcases List.mem_cons.mp hp with rfl | hp
        · have hc : a.connection = p.connection := (Prod.mk.inj ht).2
          exact .inr (.inl (by simp [accepts, ha, hc]))
        · exact .inl (hrest ▸ hp)
      · exact .inl (hother q hq ▸ hp)
  · exact (waiting_of_section h.wired hsec ho hp (h.unheard q p hp)).imp_right .inr

/-! ### Fates -/

theorem fate_of_step {k : Nat} (h : Sound R) (hs : Step R e S)
    (hc : c < R.network.connections.length) (hf : R.network.Fate c k) :
    S.network.Fate c (k + if accepts c (R, e) then 1 else 0) := by
  have hS := h.step hs
  have hmiss (hw : ¬R.network.Waits c) : accepts c (R, e) = false ∧ ¬S.network.Waits c := by
    constructor
    · exact Bool.eq_false_iff.mpr fun ha => hw (of_accepts hs ha).1
    · rintro ⟨q, p, hp, rfl⟩
      rcases mem_waitingIn_of_step hs hp with hx | hx
      · exact hw ⟨q, p, hx, rfl⟩
      · exact Nat.ne_of_lt hc hx
  cases hf with
  | waiting hw =>
    obtain ⟨q, p, hp, rfl⟩ := hw
    cases ha : accepts p.connection (R, e) with
    | true =>
      obtain ⟨-, t, ht⟩ := of_accepts hs ha
      exact .accepted (not_waits_of_held hS.wired ht)
    | false =>
      rcases waiting_of_step h hs hp with hp' | ha' | ⟨hempty, hcut⟩
      · exact .waiting ⟨q, p, hp', rfl⟩
      · simp [ha] at ha'
      · refine .cutOff ?_ hcut
        rintro ⟨q', p', hp', he⟩
        rcases mem_waitingIn_of_step hs hp' with hx | hx
        · rw [h.wired.queue_unique hx hp he, hempty] at hp'
          simp at hp'
        · exact Nat.ne_of_lt hc (he.symm.trans hx)
  | accepted hw =>
    obtain ⟨ha, hw'⟩ := hmiss hw
    rw [ha]
    exact .accepted hw'
  | cutOff hw hcut =>
    obtain ⟨ha, hw'⟩ := hmiss hw
    have ho := onward_of_step h hs
    rw [ha]
    exact .cutOff hw' ⟨(ho.pipes _ _).spent hcut.1, (ho.pipes _ _).readClosed hcut.2⟩

theorem waits_of_section {n n' : Network} {s : Nat} {call : Option Call} {p : Progress}
    (h : Section n s call p n') (hl : n.connections.length < n'.connections.length) :
    n'.Waits n.connections.length ∧ n'.connections.length = n.connections.length + 1 := by
  cases h with
  | rejected | turnedAway | refused | left => exact absurd hl (Nat.lt_irrefl _)
  | routed _ hr =>
    rw [(of_route hr).2.1] at hl
    exact absurd hl (Nat.lt_irrefl _)
  | @joined bound own target q queue hq ht =>
    have hlt := (List.getElem?_eq_some_iff.mp hq).1
    refine ⟨⟨q, ⟨Descriptor.local target.cid target.port, Descriptor.peer own.cid own.port,
      n.connections.length⟩, ?_, rfl⟩, by simp⟩
    rw [waitingIn, List.getElem?_set_self hlt]
    exact List.mem_append_right _ (List.mem_singleton_self _)
  | dropped =>
    rw [drop_connections, length_severed] at hl
    exact absurd hl (Nat.lt_irrefl _)
  | deserted =>
    rw [closeQueue_eq] at hl
    simp [setSlot] at hl
  | hungUp => simp [setSlot, modifyConnection] at hl
  | deafened => simp [modifyConnection] at hl

theorem fate_of_new (hs : Step R e S) (hn : R.network.connections.length ≤ c)
    (hl : c < S.network.connections.length) : S.network.Fate c 0 := by
  rcases hs.cases with ⟨e', n, rfl, he, -, hstep, rfl⟩ | ⟨s, p, n, -, hsec, rfl⟩
  · have hlen := length_connections_of_change (change_of_step hstep) (Event.connects?_of_atOnce he)
    have hl : c < n.connections.length := hl
    exact absurd hl (by omega)
  · obtain ⟨hw, hlen⟩ := waits_of_section hsec (Nat.lt_of_le_of_lt hn hl)
    have hc : c = R.network.connections.length := by
      have hl : c < n.connections.length := hl
      omega
    exact .waiting (hc ▸ hw)

/-- Every connection there is waits, was accepted once, or is cut off. -/
theorem fate_of_run {tr : List Moment} {R₀ : Race} (h : Run R₀ tr R) (hs : Sound R₀)
    (h₀ : R₀.network.connections = []) (c : Nat) :
    (c < R.network.connections.length → R.network.Fate c (tr.countP (accepts c))) ∧
      (R.network.connections.length ≤ c → tr.countP (accepts c) = 0) := by
  induction h with
  | nil => simp [h₀]
  | @snoc tr m k e hr hstep ih =>
    have hm := sound_of_run hr hs
    have hgrow := (onward_of_step hm hstep).connections
    have hmiss (hc : m.network.connections.length ≤ c) : accepts c (m, e) = false := by
      refine Bool.eq_false_iff.mpr fun ha => ?_
      obtain ⟨⟨q, p, hp, rfl⟩, -⟩ := of_accepts hstep ha
      have hlt := hm.wired.made _ (mem_ends_iff.mpr (.inr ⟨q, p, hp, rfl⟩))
      exact absurd hlt (Nat.not_lt_of_le hc)
    rw [List.countP_append, List.countP_singleton]
    constructor
    · intro hl
      by_cases hc : c < m.network.connections.length
      · exact fate_of_step hm hstep hc (ih.1 hc)
      · have hc := Nat.le_of_not_lt hc
        rw [ih.2 hc, hmiss hc]
        exact fate_of_new hstep hc hl
    · intro hc
      have hc := Nat.le_trans hgrow hc
      rw [ih.2 hc, hmiss hc]
      rfl

theorem lt_of_connected {tr : List Moment} {R₀ m : Race} {s : Nat} (h : Run R₀ tr R)
    (hs : Sound R₀) (hm : (m, .proceeds s (.connected c)) ∈ tr) :
    c < R.network.connections.length := by
  induction h with
  | nil => simp at hm
  | @snoc tr k k' e hr hstep ih =>
    rcases List.mem_append.mp hm with hm | hm
    · exact Nat.lt_of_lt_of_le (ih hm) (onward_of_step (sound_of_run hr hs) hstep).connections
    · cases List.mem_singleton.mp hm
      obtain ⟨call, n, -, hsec, rfl⟩ := section_of_proceeds hstep
      obtain ⟨_, _, _, _, _, -, -, -, rfl, -, hc⟩ := of_section_connected hsec rfl
      change m.network.connections.length < n.connections.length
      rw [hc, List.length_append, List.length_singleton]
      exact Nat.lt_succ_self _

theorem fate_of_connected {tr : List Moment} {R₀ m : Race} {s : Nat} (h : Run R₀ tr R)
    (hs : Sound R₀) (h₀ : R₀.network.connections = [])
    (hm : (m, .proceeds s (.connected c)) ∈ tr) :
    R.network.Queued c ∧ tr.countP (accepts c) = 0 ∨
    ¬R.network.Queued c ∧ tr.countP (accepts c) = 1 ∨
    ¬R.network.Queued c ∧ tr.countP (accepts c) = 0 ∧ R.network.CutOff c := by
  have hR := sound_of_run h hs
  have hf := (fate_of_run h hs h₀ c).1 (lt_of_connected h hs hm)
  have hqueued (hw : ¬R.network.Waits c) : ¬R.network.Queued c := by
    rintro ⟨-, -, q, queue, -, hq, -, p, hp, hc⟩
    exact hw ⟨q, p, waitingIn_of_getElem? hq ▸ hp, hc⟩
  generalize tr.countP (accepts c) = k at hf
  cases hf with
  | waiting hw =>
    obtain ⟨q, p, hp, rfl⟩ := hw
    exact .inl ⟨hR.attended.queued hp, rfl⟩
  | accepted hw => exact .inr (.inl ⟨hqueued hw, rfl⟩)
  | cutOff hw hc => exact .inr (.inr ⟨hqueued hw, rfl, hc⟩)

/-! ### Calls -/

/-- A call that nothing comes in between any more ends within the sections that are left. -/
theorem ends_of_call {s k : Nat} {call : Call} (hc : R.calls s = some call) (hk : call.rank ≤ k) :
    ∃ tr S, Run R tr S ∧ tr.length ≤ k ∧ S.calls s = none := by
  induction k generalizing R call with
  | zero => cases call <;> simp [Call.rank] at hk
  | succ k ih =>
    have hstep := Step.proceed hc
    have hnext := put_calls_same R s (call.next s R.network)
    cases hr : (call.next s R.network).1.rest? with
    | none => exact ⟨_, _, Run.nil.snoc hstep, by simp, hnext.trans hr⟩
    | some rest =>
      have hlt := rank_lt_of_section (section_of_next R.network s call) hr
      obtain ⟨tr, S, hrun, hlen, hend⟩ := ih (hnext.trans hr) (by omega)
      exact ⟨_, S, (Run.nil.snoc hstep).trans hrun, by simpa using hlen, hend⟩

theorem Sound.listening (h : Sound R) {t q : Nat} {d : Descriptor}
    (ht : R.network.slot t = .listening d q) :
    R.network.registry.get? d.endpoint = some (some q) ∧
      ∃ queue, R.network.queues[q]? = some queue ∧ queue.closed = false := by
  refine ⟨?_, h.attended.opened t q (by rw [ht]; rfl)⟩
  refine h.lists.registered t _ _ ?_
  have hcall : R.calls t = none := by
    cases hc : R.calls t with
    | none => rfl
    | some call =>
      have hf := h.fits t call hc
      cases call with
      | joining bound own target k =>
        exact absurd (ht.symm.trans hf.1) (Slot.listening_ne_ofCaller d q bound)
      | refused own => simp [Call.Fits, ht] at hf
      | hanging own c side => simp [Call.Fits, ht] at hf
      | leaving own k => simp [Call.Fits, ht] at hf
  rw [holding?, hcall, ht]
  rfl

theorem refused_of_step {s : Nat} {x : IoError} (h : Sound R)
    (hs : Step R (.proceeds s (.failed x)) S) :
    x = .plain .connectionRefused ∧ S.calls s = none ∧ S.network.slot s = R.network.slot s ∧
      ((∃ own, R.network.slot s = .bound own ∧ S.network = R.network) ∨
        ∃ own, R.calls s = some (.refused own) ∧ R.network.slot s = .fresh ∧
          R.network.registry.get? own.endpoint = some none ∧
          S.network.registry = R.network.registry.erase own.endpoint ∧
          S.network.registry.has own.endpoint = false) := by
  obtain ⟨call, n, hc, hsec, rfl⟩ := section_of_proceeds hs
  have hf := h.fits s call hc
  rcases of_section_failed hsec rfl with ⟨hx, -⟩ | ⟨rfl, hx⟩
  · simp at hx
  refine ⟨rfl, put_calls_same _ _ _, ?_⟩
  rcases hx with ⟨b, own, target, q, hcall, rfl⟩ | ⟨own, hcall, rfl⟩
  · cases hcall
    exact ⟨rfl, .inl ⟨b, hf.1, rfl⟩⟩
  · cases hcall
    have hreg := h.lists.registered s own.endpoint none (by rw [holding?, hc]; rfl)
    refine ⟨rfl, .inr ⟨own, hc, hf, hreg, rfl, ?_⟩⟩
    change (R.network.registry.erase own.endpoint).has own.endpoint = false
    rw [Registry.has, Registry.get?_erase, if_pos rfl]
    rfl

/-- Whoever connects has joined the queue of a listener at its target, the one that is registered
there. -/
theorem connected_of_step {s : Nat} (h : Sound R) (hs : Step R (.proceeds s (.connected c)) S) :
    ∃ bound own target q t d, R.calls s = some (.joining bound own target q) ∧
      R.network.slot t = .listening d q ∧ d.endpoint = target.endpoint ∧
      R.network.registry.get? target.endpoint = some (some q) ∧
      S.network.slot s = .connected own c .caller ∧ S.calls s = none := by
  obtain ⟨call, n, hc, hsec, rfl⟩ := section_of_proceeds hs
  obtain ⟨bound, own, target, q, queue, hcall, hq, ht, -, hslots, -⟩ :=
    of_section_connected hsec rfl
  cases hcall
  obtain ⟨hslot, -, -, hlisten⟩ := h.fits s _ hc
  simp only [Queue.takes, Bool.and_eq_true, Bool.not_eq_true'] at ht
  obtain ⟨-, t, d, hl⟩ := h.attended.listened hq (.inl ht.1)
  refine ⟨bound, own, target, q, t, d, hc, hl, hlisten t d hl, ?_, ?_, put_calls_same _ _ _⟩
  · rw [← hlisten t d hl]
    exact (h.listening hl).1
  · change n.slot s = _
    rw [slot_of_slots_set hslots (lt_of_slot hslot (Slot.ofCaller_ne_closed bound)), if_pos rfl]

/-- Whoever is cut off is told so at once. -/
theorem answers_of_cutOff {n : Network} {t : Nat} {own : Descriptor} (hw : Wired n)
    (hc : n.CutOff c) (ht : n.slot t = .connected own c .caller) :
    (∀ data, n.send t data = some (.error (.plain .brokenPipe), n)) ∧
      ∀ room, n.recv t room = some (.ok [], n) := by
  have hl := hw.made _ (mem_ends_of_slot (end?_of_slot ht))
  exact ⟨send_of_closed ht hl (.inr hc.2), recv_of_spent ht hl hc.1⟩

/-- Calls that connect, accept and give up, whose sections come in any order. Every call ends by
itself. A caller that is refused leaves no trace in the registry. One that is connected has joined
the queue of the listener that is registered at its target, and from then on its connection is in an
open queue, was accepted once, or is cut off. Whoever owns an endpoint stays registered with it.
With no call under way nothing else is registered, and an end that is neither held nor in an open
queue is closed. -/
theorem fates_of_race {cid : UInt32} {tr : List Moment} (h : Run (idle (ofCid cid)) tr R) :
    (∀ s call, R.calls s = some call →
      ∃ tr' S, Run R tr' S ∧ tr'.length ≤ call.rank ∧ S.calls s = none) ∧
    (∀ s target x S, Step R (.connects s target (.failed x)) S → S.network = R.network) ∧
    (∀ s x S, Step R (.proceeds s (.failed x)) S →
      x = .plain .connectionRefused ∧ S.calls s = none ∧ S.network.slot s = R.network.slot s ∧
      ((∃ own, R.network.slot s = .bound own ∧ S.network = R.network) ∨
        ∃ own, R.calls s = some (.refused own) ∧ R.network.slot s = .fresh ∧
          R.network.registry.get? own.endpoint = some none ∧
          S.network.registry = R.network.registry.erase own.endpoint ∧
          S.network.registry.has own.endpoint = false)) ∧
    (∀ s c S, Step R (.proceeds s (.connected c)) S →
      ∃ bound own target q t d, R.calls s = some (.joining bound own target q) ∧
        R.network.slot t = .listening d q ∧ d.endpoint = target.endpoint ∧
        R.network.registry.get? target.endpoint = some (some q) ∧
        S.network.slot s = .connected own c .caller ∧ S.calls s = none) ∧
    (∀ m s c, (m, .proceeds s (.connected c)) ∈ tr →
      R.network.Queued c ∧ tr.countP (accepts c) = 0 ∨
      ¬R.network.Queued c ∧ tr.countP (accepts c) = 1 ∨
      ¬R.network.Queued c ∧ tr.countP (accepts c) = 0 ∧ R.network.CutOff c ∧
        ∀ t own, R.network.slot t = .connected own c .caller →
          (∀ data, R.network.send t data = some (.error (.plain .brokenPipe), R.network)) ∧
          ∀ room, R.network.recv t room = some (.ok [], R.network)) ∧
    (∀ t e q, R.calls t = none → (R.network.slot t).holding? = some (e, q) →
      R.network.registry.get? e = some q) ∧
    (∀ t d q, R.network.slot t = .listening d q →
      R.network.registry.get? d.endpoint = some (some q) ∧
        ∃ queue, R.network.queues[q]? = some queue ∧ queue.closed = false) ∧
    ((∀ s, R.calls s = none) →
      R.network.registry.Lists (fun s => (R.network.slot s).holding?) ∧
      ∀ c side, c < R.network.connections.length → R.network.Held c side ∨
        (R.network.pipe c side).readClosed = true ∧
          (R.network.pipe c side.other).writeClosed = true) := by
  have h₀ := sound_ofCid cid
  have hs := sound_of_run h h₀
  refine ⟨fun s call hc => ends_of_call hc (Nat.le_refl _), ?_, fun s x S => refused_of_step hs,
    fun s c S => connected_of_step hs, ?_, ?_, fun t d q => hs.listening, ?_⟩
  · intro s target x S hstep
    obtain ⟨n, hsec, rfl⟩ := section_of_connects hstep
    rcases of_section_failed hsec rfl with ⟨-, rfl⟩ | ⟨-, ⟨_, _, _, _, hx, -⟩ | ⟨_, hx, -⟩⟩
    · rfl
    · simp at hx
    · simp at hx
  · intro m s c hm
    rcases fate_of_connected h h₀ rfl hm with hx | hx | ⟨hq, hk, hc⟩
    · exact .inl hx
    · exact .inr (.inl hx)
    · exact .inr (.inr ⟨hq, hk, hc, fun t own => answers_of_cutOff hs.wired hc⟩)
  · intro t e q hcall ht
    refine hs.lists.registered t e q ?_
    rw [holding?, hcall, ht]
  · intro hi
    exact ⟨hs.registry_of_idle hi, fun c side hc => hs.end_of_idle hi hc side⟩

/-- A caller finds the queue of a listener that goes before it is joined, and its endpoint has a new
listener by then: the caller is turned away, and nothing is left of what was registered for it. -/
theorem fates_of_rebound_race :
    ∃ tr R S, Run (idle (ofCid 3)) tr R ∧
      R.calls 1 = some (.refused (Descriptor.local 3 40000)) ∧
      R.network.registry = [(⟨3, 40000⟩, none), (⟨3, 1234⟩, some 1)] ∧
      Step R (.proceeds 1 (.failed (.plain .connectionRefused))) S ∧
      S.network.registry.has ⟨3, 40000⟩ = false ∧
      S.network.slot 1 = .fresh := by
  have h := Run.nil (R := idle (ofCid 3))
    |>.snoc (.atOnce rfl (fun _ _ => rfl) (.call (q := .socket) rfl))
    |>.snoc (.atOnce rfl (fun _ _ => rfl) (.call (q := .bind 0 (Descriptor.bind 3 1234)) rfl))
    |>.snoc (.atOnce rfl (fun _ _ => rfl) (.call (q := .listen 0 1) rfl))
    |>.snoc (.atOnce rfl (fun _ _ => rfl) (.call (q := .socket) rfl))
    |>.snoc (@Step.connect _ 1 (Descriptor.remote 3 1234) _ rfl rfl)
    |>.snoc (.drop (s := 0) rfl)
    |>.snoc (.proceed (s := 0) rfl)
    |>.snoc (.atOnce rfl (by rintro s ⟨⟩) (.call (q := .socket) rfl))
    |>.snoc (.atOnce rfl (by rintro s ⟨⟩; rfl)
      (.call (q := .bind 2 (Descriptor.bind 3 1234)) rfl))
    |>.snoc (.atOnce rfl (by rintro s ⟨⟩; rfl) (.call (q := .listen 2 1) rfl))
    |>.snoc (.proceed (s := 1) rfl)
  have hrefused := (fates_of_race h).2.2.1 1 (.plain .connectionRefused) _
    (@Step.proceed _ 1 (.refused (Descriptor.local 3 40000)) rfl)
  obtain ⟨-, -, hslot, hx⟩ := hrefused
  refine ⟨_, _, _, h, rfl, rfl, @Step.proceed _ 1 (.refused _) rfl, ?_, hslot⟩
  rcases hx with ⟨own, hbound, -⟩ | ⟨own, hcall, -, -, -, hfree⟩
  · change Slot.fresh = .bound own at hbound
    simp at hbound
  · cases hcall
    exact hfree

end Race
end Handoff.Loopback
