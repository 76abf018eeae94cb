import Handoff.Proofs.Loopback.Binding
import Handoff.Proofs.Loopback.Sections

/-!
The ports of those who ask for none in particular: sockets that are bound to the wildcard port and
callers that are not bound, whether or not their queue takes them. The port counter goes past every
port that a search tries. So until it starts over, whatever was handed out lies below it, and no
port is handed out twice. The main statement is `allotments_of_run`.
-/
namespace Handoff.Loopback

/-- The last of the ports that are handed out; behind it the counter starts over. -/
def lastPort : UInt32 := anyPort - 1

/-- The ports that a search tries, the one that it finds included. -/
def tried (r : Registry) (cid : UInt32) : Nat → UInt32 → List UInt32
  | 0, _ => []
  | m + 1, p => if r.has ⟨cid, p⟩ then p :: tried r cid m (nextPort p) else [p]

section Search

variable {r : Registry} {cid p q : UInt32} {m : Nat}

theorem toNat_nextPort_of_ne (h : HandedOut p) (hl : p ≠ lastPort) :
    (nextPort p).toNat = p.toNat + 1 := by
  have hn := toNat_nextPort h
  have hne : p.toNat + 1 ≠ 4294967295 := by
    intro he
    refine hl (UInt32.toNat_inj.mp ?_)
    have hlast : lastPort.toNat = 4294967294 := rfl
    omega
  rwa [if_neg hne] at hn

/-- A search that does not try the last port finds one that is not below its start, and leaves the
counter above it. -/
theorem upward_of_freePort? (hp : HandedOut p) (h : freePort? r cid m p = some q)
    (hl : lastPort ∉ tried r cid m p) :
    p.toNat ≤ q.toNat ∧ (nextPort q).toNat = q.toNat + 1 := by
  induction m generalizing p with
  | zero => simp [freePort?] at h
  | succ m ih =>
    unfold freePort? at h
    unfold tried at hl
    by_cases hu : r.has ⟨cid, p⟩ = true
    · rw [if_pos hu] at h hl
      rw [List.mem_cons, not_or] at hl
      have hn := toNat_nextPort_of_ne hp (Ne.symm hl.1)
      obtain ⟨hle, hnext⟩ := ih (handedOut_nextPort hp) h hl.2
      exact ⟨by omega, hnext⟩
    · rw [if_neg hu] at h hl
      cases h
      rw [List.mem_singleton] at hl
      exact ⟨Nat.le_refl _, toNat_nextPort_of_ne hp (Ne.symm hl)⟩

end Search

/-- The address of a caller that was not bound. -/
def Call.given? : Call → Option Descriptor
  | .joining none own _ _ | .refused own => some own
  | _ => none

namespace Race

open Network

variable {R S : Race} {e : Event}

namespace Moment

/-- The context in which a port is chosen for the one who asks, in a moment in which somebody
asks. -/
def home? : Moment → Option UInt32
  | (R, .atOnce (.answered (.bind _ a) (.ok _))) =>
    if a.port = anyPort then some (R.network.home a) else none
  | (R, .connects _ _ (.left (.joining none _ _ _))) => some R.network.cid
  | _ => none

/-- The endpoint that is allotted in a moment. -/
def allotted? (x : Moment) : Option Endpoint :=
  x.home?.bind fun cid =>
    (allocate? x.1.network.registry cid x.1.network.counter).map fun p => ⟨cid, p.1⟩

/-- The ports that the counter goes past in a moment. -/
def passed (x : Moment) : List UInt32 :=
  match x.home? with
  | some cid =>
    tried x.1.network.registry cid (x.1.network.registry.length + 1) x.1.network.counter
  | none => []

end Moment

/-- The endpoints that are allotted in a run, in this order. -/
def allotments (tr : List Moment) : List Endpoint := tr.filterMap Moment.allotted?

/-! ### One step -/

/-- What happens to the port counter in a step: nothing, or it goes past the port that is handed
out. -/
inductive Counted (x : Moment) (next : UInt32) : Prop where
  | stays (hx : x.home? = none) (hn : next = x.1.network.counter)
  | passes {cid port : UInt32} (hx : x.home? = some cid)
      (ha : allocate? x.1.network.registry cid x.1.network.counter = some (port, next))

theorem counter_closeQueue (n : Network) (q : Nat) : (n.closeQueue q).counter = n.counter := by
  rw [closeQueue_eq]

theorem counted_of_change {n : Network} {e : Network.Event} (h : Change R.network e n)
    (he : e.atOnce = true) : Counted (R, .atOnce e) n.counter := by
  cases h with
  | @bound s a cid port m hs hcid hp hf =>
    obtain ⟨-, ⟨ha, hport⟩ | ⟨ha, -, rfl⟩⟩ := of_choosePort hp
    · subst hcid
      exact .passes (if_pos ha) hport
    · exact .stays (if_neg ha) rfl
  | failed q e => exact .stays (by cases q <;> rfl) rfl
  | told | made | listening | accepted | sent | received | shut => exact .stays rfl rfl
  | connected | crowded | dropped => simp [Network.Event.atOnce] at he

/-- A section leaves the counter where it is, unless it looks the target up for a caller that is not
bound: then the caller is given the next free port. -/
theorem counter_of_section {n n' : Network} {s : Nat} {call : Option Call} {p : Progress}
    (h : Section n s call p n') :
    (∀ own target q, p ≠ .left (.joining none own target q)) ∧ n'.counter = n.counter ∨
    call = none ∧ ∃ port target q,
      p = .left (.joining none (Descriptor.local n.cid port) target q) ∧
      allocate? n.registry n.cid n.counter = some (port, n'.counter) := by
  cases h with
  | routed hs hr =>
    obtain ⟨-, -, ⟨rfl, rfl⟩ | ⟨rfl, port, ha, rfl, -⟩⟩ := of_route hr
    · exact .inl ⟨by simp, rfl⟩
    · exact .inr ⟨rfl, port, _, _, rfl, ha⟩
  | @turnedAway bound => cases bound <;> exact .inl ⟨by simp [Call.afterRefusal], rfl⟩
  | deafened own c side => cases side <;> exact .inl ⟨by simp [Call.afterHanging], rfl⟩
  | dropped => exact .inl ⟨by simp, drop_counter n s⟩
  | deserted => exact .inl ⟨by simp, counter_closeQueue n _⟩
  | rejected | joined | refused | hungUp | left => exact .inl ⟨by simp, rfl⟩

theorem not_joining_of_beginDrop {n : Network} {s : Nat} {bound : Option Descriptor}
    {own target : Descriptor} {q : Nat} :
    (n.beginDrop s).1 ≠ .left (.joining bound own target q) := by
  unfold beginDrop
  split <;> simp

theorem home?_connects {s : Nat} {target : Descriptor} {p : Progress}
    (hp : ∀ own target q, p ≠ .left (.joining none own target q)) :
    Moment.home? (R, .connects s target p) = none := by
  unfold Moment.home?
  split
  · rename_i he
    simp at he
  · rename_i own target' q he
    cases he
    exact absurd rfl (hp own target' q)
  · rfl

theorem counted_of_step (hs : Step R e S) : Counted (R, e) S.network.counter := by
  cases hs with
  | atOnce he _ h => exact counted_of_change (change_of_step h) he
  | @connect s target x hi h =>
    obtain ⟨p, n⟩ := x
    rcases counter_of_section (section_of_beginConnect h) with
      ⟨hp, hn⟩ | ⟨-, port, target', q, hp, ha⟩
    · exact .stays (home?_connects hp) hn
    · cases hp
      exact .passes rfl ha
  | drop hi =>
    rcases counter_of_section (section_of_beginDrop _ _) with ⟨-, hn⟩ | ⟨-, _, _, _, hp, -⟩
    · exact .stays rfl hn
    · exact absurd hp not_joining_of_beginDrop
  | proceed hc =>
    rcases counter_of_section (section_of_next _ _ _) with ⟨-, hn⟩ | ⟨hcall, -⟩
    · exact .stays rfl hn
    · simp at hcall

theorem handedOut_of_step (hs : Step R e S) (hc : HandedOut R.network.counter) :
    HandedOut S.network.counter := by
  cases counted_of_step hs with
  | stays hx hn => rwa [hn]
  | passes hx ha =>
    obtain ⟨-, hnext, hport⟩ := of_allocate?_eq_some ha
    rw [hnext]
    exact handedOut_nextPort (hport hc)

theorem handedOut_of_run {tr : List Moment} {R₀ : Race} (h : Run R₀ tr R)
    (hc : HandedOut R₀.network.counter) : HandedOut R.network.counter :=
  h.keeps (fun _ _ _ hc hs => handedOut_of_step hs hc) hc

theorem handedOut_of_mem {tr : List Moment} {R₀ : Race} (h : Run R₀ tr R)
    (hc : HandedOut R₀.network.counter) : ∀ x ∈ tr, HandedOut x.1.network.counter := by
  induction h with
  | nil => simp
  | snoc hr hs ih =>
    intro x hx
    rcases List.mem_append.mp hx with hx | hx
    · exact ih x hx
    · cases List.mem_singleton.mp hx
      exact handedOut_of_run hr hc

/-- Whoever is allotted an endpoint is the first to be registered with it. -/
theorem of_allotted? {x : Moment} {key : Endpoint} (h : x.allotted? = some key)
    (hc : HandedOut x.1.network.counter) :
    HandedOut key.port ∧ x.1.network.registry.has key = false := by
  obtain ⟨cid, -, h⟩ := Option.bind_eq_some_iff.mp h
  obtain ⟨⟨port, next⟩, ha, rfl⟩ := Option.map_eq_some_iff.mp h
  obtain ⟨hfree, -, hport⟩ := of_allocate?_eq_some ha
  exact ⟨hport hc, hfree⟩

/-- A step that does not go past the last port leaves the counter right above the port that it
allots, or allots nothing. -/
theorem upward_of_step (hs : Step R e S) (hc : HandedOut R.network.counter)
    (hl : lastPort ∉ Moment.passed (R, e)) :
    Moment.allotted? (R, e) = none ∧ S.network.counter = R.network.counter ∨
    ∃ key, Moment.allotted? (R, e) = some key ∧
      R.network.counter.toNat ≤ key.port.toNat ∧
      S.network.counter.toNat = key.port.toNat + 1 := by
  cases counted_of_step hs with
  | stays hx hn => exact .inl ⟨by rw [Moment.allotted?, hx]; rfl, hn⟩
  | @passes cid port hx ha =>
    refine .inr ⟨⟨cid, port⟩, ?_, ?_⟩
    · rw [Moment.allotted?, hx, Option.bind_some, ha]
      rfl
    · rw [Moment.passed, hx] at hl
      obtain ⟨q, hq, he⟩ := Option.map_eq_some_iff.mp ha
      obtain ⟨rfl, hn⟩ := Prod.mk.inj he
      rw [← hn]
      exact upward_of_freePort? hc hq hl

/-! ### Runs -/

/-- Ports that count up and have the counter above them. -/
structure Ascending (n : Network) (ports : List UInt32) : Prop where
  ordered : ports.Pairwise (· < ·)
  below : ∀ p ∈ ports, p < n.counter

theorem ascending_of_step {ports : List UInt32} (hs : Step R e S) (hc : HandedOut R.network.counter)
    (hl : lastPort ∉ Moment.passed (R, e)) (h : Ascending R.network ports) :
    Ascending S.network (ports ++ ((Moment.allotted? (R, e)).map Endpoint.port).toList) := by
  rcases upward_of_step hs hc hl with ⟨ha, hn⟩ | ⟨key, ha, hle, hn⟩
  · rw [ha]
    simp only [Option.map_none, Option.toList_none, List.append_nil]
    exact ⟨h.ordered, by rw [hn]; exact h.below⟩
  · rw [ha]
    have hbelow {p : UInt32} (hp : p ∈ ports) : p < key.port := by
      have hlt := h.below p hp
      rw [UInt32.lt_iff_toNat_lt] at hlt ⊢
      omega
    have hkey : key.port < S.network.counter := by
      rw [UInt32.lt_iff_toNat_lt]
      omega
    constructor
    · rw [List.pairwise_append]
      refine ⟨h.ordered, List.pairwise_singleton _ _, ?_⟩
      intro p hp q hq
      cases List.mem_singleton.mp hq
      exact hbelow hp
    · intro p hp
      rcases List.mem_append.mp hp with hp | hp
      · exact UInt32.lt_trans (hbelow hp) hkey
      · cases List.mem_singleton.mp hp
        exact hkey

theorem allotments_snoc (tr : List Moment) (x : Moment) :
    (allotments (tr ++ [x])).map Endpoint.port =
      (allotments tr).map Endpoint.port ++ (x.allotted?.map Endpoint.port).toList := by
  rw [allotments, List.filterMap_append, List.map_append, List.filterMap_cons, List.filterMap_nil]
  cases x.allotted? <;> rfl

/-- Until the counter starts over, the ports that are allotted count up. -/
theorem ascending_of_run {tr : List Moment} {R₀ : Race} (h : Run R₀ tr R)
    (hc : HandedOut R₀.network.counter) (hl : ∀ x ∈ tr, lastPort ∉ x.passed) :
    Ascending R.network ((allotments tr).map Endpoint.port) := by
  induction h with
  | nil => exact ⟨.nil, by simp [allotments]⟩
  | snoc hr hs ih =>
    rw [allotments_snoc]
    refine ascending_of_step hs (handedOut_of_run hr hc) (hl _ (by simp)) (ih ?_)
    exact fun x hx => hl x (List.mem_append_left _ hx)

/-! ### Who asks -/

theorem of_bind_anyPort {n n' : Network} {s : Nat} {a : Descriptor} (ha : a.port = anyPort)
    (h : n.bind s a = some (.ok (), n')) :
    ∃ port, allocate? n.registry (n.home a) n.counter = some (port, n'.counter) ∧
      n'.slot s = .bound (Descriptor.local (n.home a) port) := by
  unfold Network.bind at h
  split at h
  · rename_i hs
    dsimp only at h
    generalize hcid : (if a.cid = anyCid then n.cid else a.cid) = cid at h
    have hcid : n.home a = cid := hcid
    rw [hcid]
    split at h
    · simp at h
    · rename_i port m hp
      obtain ⟨hm, ⟨-, hport⟩ | ⟨hne, -, -⟩⟩ := of_choosePort hp
      · have hl : s < m.slots.length := by
          rw [hm]
          exact lt_of_slot hs (by simp)
        split at h
        · simp at h
        · cases h
          exact ⟨port, hport, by rw [setSlot, slot_of_slots_set rfl hl, if_pos rfl]⟩
      · exact absurd ha hne
  · simp at h

/-- A socket that is bound to the wildcard port is bound to the endpoint that is allotted. -/
theorem allotted_of_bind {s : Nat} {a : Descriptor} (ha : a.port = anyPort)
    (hs : Step R (.atOnce (.answered (.bind s a) (.ok ()))) S) :
    ∃ key, Moment.allotted? (R, .atOnce (.answered (.bind s a) (.ok ()))) = some key ∧
      key.cid = R.network.home a ∧
      S.network.slot s = .bound (Descriptor.local key.cid key.port) := by
  rcases hs.cases with ⟨e', n, he, -, -, hstep, rfl⟩ | ⟨_, _, _, hne, -, -⟩
  · cases he
    obtain ⟨port, hport, hslot⟩ := of_bind_anyPort ha hstep.answer
    refine ⟨⟨R.network.home a, port⟩, ?_, rfl, hslot⟩
    have hhome : Moment.home? (R, .atOnce (.answered (.bind s a) (.ok ()))) =
        some (R.network.home a) := if_pos ha
    rw [Moment.allotted?, hhome, Option.bind_some, hport]
    rfl
  · exact absurd rfl (hne _)

/-- A socket that is not bound and connects is allotted an endpoint, unless nobody listens at the
target. -/
theorem allotted_of_connects {s : Nat} {target : Descriptor} {p : Progress}
    (hs : Step R (.connects s target p) S) (hf : R.network.slot s = .fresh) :
    p = .failed (.plain .connectionRefused) ∧ S.network = R.network ∧
      Moment.allotted? (R, .connects s target p) = none ∨
    ∃ key q, p = .left (.joining none (Descriptor.local key.cid key.port) target q) ∧
      Moment.allotted? (R, .connects s target p) = some key ∧ key.cid = R.network.cid := by
  generalize he : Event.connects s target p = e at hs
  cases hs with
  | atOnce | drop | proceed => simp at he
  | @connect _ _ x hi h =>
    cases he
    have hb : R.network.beginConnect s target = R.network.lookUp none target := by
      rw [beginConnect, hf]
    rw [hb, lookUp] at h
    split at h
    · simp at h
    · rename_i e m hr
      obtain ⟨rfl, rfl, -⟩ := of_route_error hr
      cases h
      exact .inl ⟨rfl, rfl, rfl⟩
    · rename_i q own m hr
      obtain ⟨-, -, ⟨hx, -⟩ | ⟨-, port, ha, rfl, -⟩⟩ := of_route hr
      · simp at hx
      · cases h
        refine .inr ⟨⟨R.network.cid, port⟩, q, rfl, ?_, rfl⟩
        rw [Moment.allotted?, Moment.home?, Option.bind_some, ha]
        rfl

/-- The address of a caller under way that was not bound. -/
def given? (R : Race) (s : Nat) : Option Descriptor := (R.calls s).bind Call.given?

theorem given_of_section {n n' : Network} {s : Nat} {call : Option Call} {p : Progress}
    {own : Descriptor} (h : Section n s call p n') (hg : p.rest?.bind Call.given? = some own) :
    call.bind Call.given? = some own ∨
      call = none ∧ ∃ target q, p = .left (.joining none own target q) := by
  cases h with
  | @routed bound =>
    cases bound with
    | none =>
      cases hg
      exact .inr ⟨rfl, _, _, rfl⟩
    | some _ => simp [Progress.rest?, Call.given?] at hg
  | @turnedAway bound =>
    cases bound with
    | none =>
      cases hg
      exact .inl rfl
    | some _ => simp [Call.afterRefusal, Progress.rest?] at hg
  | deafened own c side =>
    cases side <;> simp [Call.afterHanging, Progress.rest?, Call.given?] at hg
  | rejected | joined | refused | dropped | deserted | hungUp | left =>
    simp [Progress.rest?, Call.given?] at hg

theorem given?_put (R : Race) {s t : Nat} {x : Progress × Network} {own : Descriptor}
    (hg : (R.put t x).given? s = some own) :
    R.given? s = some own ∨ s = t ∧ x.1.rest?.bind Call.given? = some own := by
  by_cases ht : s = t
  · subst ht
    rw [given?, put_calls_same] at hg
    exact .inr ⟨rfl, hg⟩
  · rw [given?, put_calls_other R x ht] at hg
    exact .inl hg

/-- Whatever address a caller under way is given was allotted to it. -/
theorem given_of_step {s : Nat} {own : Descriptor} (hs : Step R e S)
    (hg : S.given? s = some own) :
    R.given? s = some own ∨ Moment.allotted? (R, e) = some own.endpoint := by
  cases hs with
  | atOnce => exact .inl hg
  | @connect t target x hi h =>
    have hsec := section_of_beginConnect h
    obtain ⟨p, n⟩ := x
    refine (given?_put R hg).imp_right fun ⟨_, hg⟩ => ?_
    rcases given_of_section hsec hg with hx | ⟨-, target', q, hp⟩
    · simp at hx
    · cases hp
      rcases counter_of_section hsec with ⟨hne, -⟩ | ⟨-, port, _, _, hp, ha⟩
      · exact absurd rfl (hne own target' q)
      · cases hp
        rw [Moment.allotted?, Moment.home?, Option.bind_some, ha]
        rfl
  | @drop t hi =>
    refine (given?_put R hg).imp_right fun ⟨_, hg⟩ => ?_
    rcases given_of_section (section_of_beginDrop _ _) hg with hx | ⟨-, target', q, hp⟩
    · simp at hx
    · exact absurd hp not_joining_of_beginDrop
  | @proceed t call hc =>
    rcases given?_put R hg with hg | ⟨rfl, hg⟩
    · exact .inl hg
    · rcases given_of_section (section_of_next _ _ _) hg with hx | ⟨hcall, -⟩
      · exact .inl (by rwa [given?, hc])
      · simp at hcall

theorem given_of_run {tr : List Moment} {R₀ : Race} (h : Run R₀ tr R) (hi : ∀ s, R₀.calls s = none)
    {s : Nat} {own : Descriptor} (hg : R.given? s = some own) : own.endpoint ∈ allotments tr := by
  induction h with
  | nil =>
    rw [given?, hi] at hg
    simp at hg
  | snoc hr hs ih =>
    rw [allotments, List.filterMap_append, List.mem_append]
    rcases given_of_step hs hg with hg | ha
    · exact .inl (ih hg)
    · refine .inr ?_
      rw [List.mem_filterMap]
      exact ⟨_, List.mem_singleton_self _, ha⟩

/-- Binds to the wildcard port and connects from sockets that are not bound, in any run, with the
sections of the calls in any order. Whoever asks is allotted an endpoint with a port from
`firstPort` on, never the wildcard port, that is not in use in its context. Until the counter goes
past the last port, the ports that are allotted count up, whatever is bound explicitly or given back
meanwhile, so none of them comes twice. A socket that is bound is bound to what it was allotted. A
caller is allotted what it joins its queue with, and a caller that its queue turns away was allotted
what it gives back. -/
theorem allotments_of_run {cid : UInt32} {tr : List Moment} (h : Run (idle (ofCid cid)) tr R) :
    ((∀ x ∈ tr, lastPort ∉ x.passed) →
      ((allotments tr).map Endpoint.port).Pairwise (· < ·) ∧
      ((allotments tr).map Endpoint.port).Nodup) ∧
    (∀ x ∈ tr, ∀ key, x.allotted? = some key →
      firstPort ≤ key.port ∧ key.port ≠ anyPort ∧ x.1.network.registry.has key = false) ∧
    (∀ s a S, a.port = anyPort → Step R (.atOnce (.answered (.bind s a) (.ok ()))) S →
      ∃ key, Moment.allotted? (R, .atOnce (.answered (.bind s a) (.ok ()))) = some key ∧
        key.cid = R.network.home a ∧
        S.network.slot s = .bound (Descriptor.local key.cid key.port)) ∧
    (∀ s target p S, R.network.slot s = .fresh → Step R (.connects s target p) S →
      p = .failed (.plain .connectionRefused) ∧ S.network = R.network ∧
        Moment.allotted? (R, .connects s target p) = none ∨
      ∃ key q, p = .left (.joining none (Descriptor.local key.cid key.port) target q) ∧
        Moment.allotted? (R, .connects s target p) = some key ∧ key.cid = R.network.cid) ∧
    (∀ s own, (∃ target q, R.calls s = some (.joining none own target q)) ∨
      R.calls s = some (.refused own) → own.endpoint ∈ allotments tr) := by
  have h₀ : HandedOut (idle (ofCid cid)).network.counter := handedOut_firstPort
  refine ⟨?_, ?_, fun s a S ha hs => allotted_of_bind ha hs,
    fun s target p S hf hs => allotted_of_connects hs hf, ?_⟩
  · intro hl
    have hup := (ascending_of_run h h₀ hl).ordered
    exact ⟨hup, hup.imp UInt32.ne_of_lt⟩
  · intro x hx key hk
    obtain ⟨⟨hfirst, hany⟩, hfree⟩ := of_allotted? hk (handedOut_of_mem h h₀ x hx)
    exact ⟨hfirst, hany, hfree⟩
  · intro s own hc
    have hg : R.given? s = some own := by
      rw [given?]
      rcases hc with ⟨target, q, hc⟩ | hc <;> rw [hc] <;> rfl
    exact given_of_run h (fun _ => rfl) hg

/-- Somebody is bound to the first port explicitly, one caller is connected and goes, the next is
turned away, and a socket is bound to the wildcard port: each of the three is allotted a port of its
own, and none is the one that was given back. -/
theorem allotments_of_crowded_race :
    ∃ tr R, Run (idle (ofCid 3)) tr R ∧ (∀ x ∈ tr, lastPort ∉ x.passed) ∧
      allotments tr = [⟨3, 40001⟩, ⟨3, 40002⟩, ⟨3, 40003⟩] ∧
      ((allotments tr).map Endpoint.port).Pairwise (· < ·) ∧
      R.network.registry = [(⟨3, 40000⟩, some 0), (⟨3, 40003⟩, none)] := by
  have h := Run.nil (R := idle (ofCid 3))
    |>.snoc (.atOnce rfl (fun _ _ => rfl) (.call (q := .socket) rfl))
    |>.snoc (.atOnce rfl (fun _ _ => rfl) (.call (q := .bind 0 (Descriptor.bind 3 40000)) rfl))
    |>.snoc (.atOnce rfl (fun _ _ => rfl) (.call (q := .listen 0 1) rfl))
    |>.snoc (.atOnce rfl (fun _ _ => rfl) (.call (q := .socket) rfl))
    |>.snoc (@Step.connect _ 1 (Descriptor.remote 3 40000) _ rfl rfl)
    |>.snoc (.proceed (s := 1) rfl)
    |>.snoc (.atOnce rfl (by rintro s ⟨⟩) (.call (q := .socket) rfl))
    |>.snoc (@Step.connect _ 2 (Descriptor.remote 3 40000) _ rfl rfl)
    |>.snoc (.drop (s := 1) rfl)
    |>.snoc (.proceed (s := 2) rfl)
    |>.snoc (.proceed (s := 1) rfl)
    |>.snoc (.proceed (s := 2) rfl)
    |>.snoc (.proceed (s := 1) rfl)
    |>.snoc (.atOnce rfl (by rintro s ⟨⟩) (.call (q := .socket) rfl))
    |>.snoc (.atOnce rfl (by rintro s ⟨⟩; rfl)
      (.call (q := .bind 3 (Descriptor.bind anyCid anyPort)) rfl))
  obtain ⟨tr, R, h, hl, ha, hr⟩ : ∃ tr R, Run (idle (ofCid 3)) tr R ∧
      (tr.all fun x => lastPort ∉ x.passed) = true ∧
      allotments tr = [⟨3, 40001⟩, ⟨3, 40002⟩, ⟨3, 40003⟩] ∧
      R.network.registry = [(⟨3, 40000⟩, some 0), (⟨3, 40003⟩, none)] :=
    ⟨_, _, h, by rfl, rfl, rfl⟩
  have hl : ∀ x ∈ tr, lastPort ∉ x.passed := by simpa using hl
  exact ⟨tr, R, h, hl, ha, ((allotments_of_run h).1 hl).1, hr⟩

end Race
end Handoff.Loopback
