import Handoff.Proofs.Exchange.Listening
import Handoff.Proofs.Loopback.Refusals

/-!
Setting a server up over a network, for every address to bind to. If the endpoint is free there is
one more listener, and while it accepts nobody, it lets in as many callers as it has places and
refuses the others; if it is taken, nothing changes. The main statement is `opened_of_run`.
-/
namespace Handoff

open Loopback (Network Slot Queue Registry HandedOut)
open Loopback.Network

namespace Loopback

def Slot.calls : Slot → Bool
  | .fresh | .bound _ => true
  | .listening .. | .connected .. | .closed => false

theorem Slot.calls_iff (t : Slot) : t.calls = true ↔ ∃ bound, t = Slot.ofCaller bound := by
  constructor
  · intro h
    cases t with
    | fresh => exact ⟨none, rfl⟩
    | bound own => exact ⟨some own, rfl⟩
    | listening _ _ | connected _ _ _ | closed => simp [calls] at h
  · rintro ⟨bound, rfl⟩
    cases bound <;> rfl

namespace Network

/-- What a caller of an endpoint is answered, in a moment in which one calls. -/
def Moment.attempt? (e : Endpoint) : Moment → Option (Except IoError Unit)
  | (n, .answered (.connect s target) r) =>
    if (n.slot s).calls ∧ target.endpoint = e then some r else none
  | _ => none

def attempts (e : Endpoint) (tr : List Moment) : List (Except IoError Unit) :=
  tr.filterMap (Moment.attempt? e)

variable {n n' : Network} {e : Event} {s t q places : Nat} {own target : Descriptor}
  {r : Except IoError Unit} {bound : Option Descriptor} {answers : List (Except IoError Unit)}

theorem of_attempt? {key : Endpoint} (h : Moment.attempt? key (n, e) = some r) :
    ∃ t target, e = .answered (.connect t target) r ∧ target.endpoint = key ∧
      ∃ bound, n.slot t = Slot.ofCaller bound := by
  cases e with
  | dropped s => simp [Moment.attempt?] at h
  | answered p r' =>
    cases p with
    | connect t target =>
      simp only [Moment.attempt?, Option.ite_none_right_eq_some, Option.some.injEq] at h
      obtain ⟨⟨hc, ht⟩, rfl⟩ := h
      exact ⟨t, target, rfl, ht, (Slot.calls_iff _).mp hc⟩
    | socket | bind | listen | accept | send | recv | shutdown | localAddr =>
      simp [Moment.attempt?] at h

theorem attempt?_of_connects (h : Change n e n') (he : e.connects? = some (t, target)) :
    ∃ r, Moment.attempt? target.endpoint (n, e) = some r := by
  obtain ⟨-, bound, hb⟩ := ofCaller_of_connects h he
  have hcalls := (Slot.calls_iff _).mpr ⟨bound, hb⟩
  cases e with
  | dropped s => simp [Event.connects?] at he
  | answered p r =>
    cases p with
    | connect t' target' =>
      cases r with
      | error e => simp [Event.connects?] at he
      | ok _ =>
        cases he
        exact ⟨_, if_pos ⟨hcalls, rfl⟩⟩
    | socket | bind | listen | accept | send | recv | shutdown | localAddr =>
      cases r <;> simp [Event.connects?] at he

/-- A caller that is answered is let in while a place is left, and refused otherwise. -/
theorem answer_of_listening (ho : Owned n) (hl : n.slot s = .listening own q)
    (hp : Places n q places) (ht : n.slot t = Slot.ofCaller bound)
    (he : target.endpoint = own.endpoint) (h : n.connect t target = some (r, n')) :
    r = if (n.waitingIn q).length < places then .ok () else .error (.plain .connectionRefused) := by
  have hreg : n.registry.queue? target.endpoint = some q :=
    ho.queue?_eq_some_iff.mpr ⟨s, own, hl, he.symm⟩
  have hf : bound = none → ∃ p, HandedOut p ∧ n.registry.has ⟨n.cid, p⟩ = false := by
    rintro rfl
    have ha := answer_of_connect ht hreg
    rw [h] at ha
    rw [← Loopback.allocate?_isSome_iff ho.counter]
    cases hx : Loopback.allocate? n.registry n.cid n.counter with
    | none => simp [hx] at ha
    | some x => rfl
  obtain ⟨m, hc⟩ := connect_of_listening ho hl hp ht he hf
  rw [h] at hc
  cases hc
  rfl

/-- Who waits for a listener changes only when it accepts somebody or is given up, or somebody
connects to it. -/
theorem waitingIn_unless_joined (ho : Owned n) (hs : Step n e n') (hl : n.slot s = .listening own q)
    (hd : e ≠ .dropped s) (ha : ∀ x, e ≠ .answered (.accept s) (.ok x))
    (hc : ∀ t target, e.connects? = some (t, target) → target.endpoint ≠ own.endpoint) :
    n'.waitingIn q = n.waitingIn q := by
  have hchange := change_of_step hs
  by_cases he : e.subject? = some s
  · have hnone : e.connects? = none := by
      cases hx : e.connects? with
      | none => rfl
      | some x =>
        obtain ⟨hsub, bound, hb⟩ := ofCaller_of_connects hchange hx
        cases hsub.symm.trans he
        exact absurd (hl.symm.trans hb) (Slot.listening_ne_ofCaller own q _)
    refine waitingIn_of_step hs ?_ hnone ?_ q
    · cases hx : Moment.admission? (n, e) with
      | none => rfl
      | some a =>
        obtain ⟨rfl, -⟩ := of_admission? hs hx
        cases he
        exact absurd rfl (ha _)
    · rintro k rfl
      cases he
      exact hd rfl
  · exact waitingIn_frame ho hchange hl he hc

/-- A listener that has accepted nobody, and has let in as many of its callers as it has places. -/
structure Filling (s q places : Nat) (own : Descriptor) (answers : List (Except IoError Unit))
    (n : Network) : Prop where
  listening : n.slot s = .listening own q
  room : Places n q places
  waiting : (n.waitingIn q).length = min answers.length places
  answered : ∀ i r, answers[i]? = some r →
    r = if i < places then .ok () else .error (.plain .connectionRefused)

theorem Filling.step (h : Filling s q places own answers n) (ho : Owned n) (hs : Step n e n')
    (hd : e ≠ .dropped s) (ha : ∀ x, e ≠ .answered (.accept s) (.ok x)) :
    Filling s q places own (answers ++ (Moment.attempt? own.endpoint (n, e)).toList) n' := by
  have hl := h.listening
  have hc := change_of_step hs
  have hw := h.waiting
  have hslot : n'.slot s = .listening own q := by
    rw [slot_of_settled hc hd (lt_of_slot hl (by simp)), hl]
    intro bound
    rw [hl]
    exact Slot.listening_ne_ofCaller own q bound
  have hplaces := places_of_change hc h.room
  cases hx : Moment.attempt? own.endpoint (n, e) with
  | none =>
    have hsame := waitingIn_unless_joined ho hs hl hd ha (by
      rintro t target ht he
      obtain ⟨r, hr⟩ := attempt?_of_connects hc ht
      rw [he, hx] at hr
      simp at hr)
    rw [Option.toList_none, List.append_nil]
    exact ⟨hslot, hplaces, hsame ▸ hw, h.answered⟩
  | some r =>
    obtain ⟨t, target, rfl, ht, bound, hb⟩ := of_attempt? hx
    have hr := answer_of_listening ho hl h.room hb ht hs.answer
    -- a place is left for this caller exactly when fewer than the places have called
    have hroom : (n.waitingIn q).length < places ↔ answers.length < places := by omega
    simp only [hroom] at hr
    refine ⟨hslot, hplaces, ?_, ?_⟩
    · rw [Option.toList_some, List.length_append, List.length_singleton]
      by_cases hlt : answers.length < places
      · rw [if_pos hlt] at hr
        subst hr
        obtain ⟨own', -, hjoined⟩ := waitingIn_of_connects ho hc hl rfl ht
        rw [hjoined, List.length_append, List.length_singleton]
        omega
      · rw [if_neg hlt] at hr
        subst hr
        have hsame := waitingIn_unless_joined ho hs hl hd ha (by
          intro t' target' hconn
          simp [Event.connects?] at hconn)
        rw [hsame]
        omega
    · intro i r' hi
      rw [Option.toList_some] at hi
      rcases Nat.lt_trichotomy i answers.length with hlt | rfl | hlt
      · rw [List.getElem?_append_left hlt] at hi
        exact h.answered i r' hi
      · rw [List.getElem?_concat_length, Option.some.injEq] at hi
        exact hi ▸ hr
      · rw [List.getElem?_eq_none_iff.mpr (by simpa using Nat.succ_le_of_lt hlt)] at hi
        simp at hi

theorem Filling.of_run {m : Network} {tr : List Moment} (h : Filling s q places own [] n)
    (ho : Owned n) (hr : Run n tr m)
    (hlives : ∀ x ∈ tr, x.2 ≠ .dropped s ∧ ∀ y, x.2 ≠ .answered (.accept s) (.ok y)) :
    Filling s q places own (attempts own.endpoint tr) m := by
  induction hr with
  | nil => exact h
  | @snoc tr k k' e hr hs ih =>
    have hlast := hlives _ (List.mem_append_right _ (List.mem_singleton_self _))
    have ih := ih fun x hx => hlives x (List.mem_append_left _ hx)
    rw [attempts, filterMap_snoc]
    exact ih.step (owned_of_run hr ho) hs hlast.1 hlast.2

/-- The next caller is let in while fewer than the places have called. -/
theorem Filling.next (h : Filling s q places own answers n) (ho : Owned n)
    (ht : n.slot t = Slot.ofCaller bound) (he : target.endpoint = own.endpoint)
    (hf : bound = none → ∃ p, HandedOut p ∧ n.registry.has ⟨n.cid, p⟩ = false) :
    ∃ m, n.connect t target = some (if answers.length < places then .ok ()
      else .error (.plain .connectionRefused), m) := by
  have hw := h.waiting
  have hroom : (n.waitingIn q).length < places ↔ answers.length < places := by omega
  obtain ⟨m, hc⟩ := connect_of_listening ho h.listening h.room ht he hf
  simp only [hroom] at hc
  exact ⟨m, hc⟩

end Network
end Loopback

namespace Server

variable {n : Network} {cfg : Config} {key : Endpoint}

/-- The listener of a server that was set up on an endpoint. -/
def Config.listener (cfg : Config) (n : Network) (key : Endpoint) : Listener Nat :=
  ⟨⟨n.slots.length, .listening, some cfg.bind, none⟩, Descriptor.local key.cid key.port,
    cfg.room⟩

/-- A network with one more listener. -/
def Config.opened (cfg : Config) (n : Network) (key : Endpoint) : Network :=
  { n with
    counter := n.counterAfter cfg.bind key
    registry := n.registry ++ [(key, some n.queues.length)]
    queues := n.queues ++ [Queue.ofBacklog cfg.backlog]
    slots := n.slots ++ [.listening (Descriptor.local key.cid key.port) n.queues.length] }

/-- On a free endpoint a server is set up. -/
theorem listen_of_free (hk : n.Names cfg.bind key) (hc : HandedOut n.counter)
    (hf : n.registry.has key = false) :
    listen Network.transport cfg n = some (.ok (cfg.listener n key), cfg.opened n key) := by
  have hbind : ({ n with slots := n.slots ++ [.fresh] } : Network).bind n.slots.length cfg.bind =
      some (.ok (), { n with
        counter := n.counterAfter cfg.bind key
        registry := n.registry.put key none
        slots := n.slots ++ [.bound (Descriptor.local key.cid key.port)] }) := by
    have h := bind_of_free (slot_made n) hk.made hc hf
    simp only [made, Loopback.set_append_length] at h
    exact h
  have hlisten : ({ n with
        counter := n.counterAfter cfg.bind key
        registry := n.registry.put key none
        slots := n.slots ++ [.bound (Descriptor.local key.cid key.port)] } : Network).listen
        n.slots.length cfg.backlog = some (.ok (), cfg.opened n key) := by
    rw [Loopback.Network.listen_eq (slot_of_slots_append (n := n) rfl _ |>.trans (if_pos rfl))]
    simp only [Loopback.set_append_length]
    rw [Config.opened, ← Registry.put_eq_append hf]
    have he : (Descriptor.local key.cid key.port).endpoint = key := rfl
    simp only [he, Registry.put_put]
  have haddr : (cfg.opened n key).localAddr n.slots.length =
      some (.ok (Descriptor.local key.cid key.port), cfg.opened n key) := by
    refine localAddr_of_own? ?_
    rw [slot_of_slots_append (n := n) rfl, if_pos rfl]
    rfl
  simp only [listen_eq, hbind, hlisten, haddr]
  rfl

theorem listen_of_taken (hk : n.Names cfg.bind key) (ht : n.registry.has key = true) :
    listen Network.transport cfg n = some (.error (.bind cfg.bind (.plain .addrInUse)),
      { n with slots := n.slots ++ [.closed] }) := by
  have hbind : ({ n with slots := n.slots ++ [.fresh] } : Network).bind n.slots.length cfg.bind =
      some (.error (.plain .addrInUse), { n with slots := n.slots ++ [.fresh] }) :=
    bind_of_taken (slot_made n) hk.made ht
  have hdrop : ({ n with slots := n.slots ++ [.fresh] } : Network).drop n.slots.length =
      { n with slots := n.slots ++ [.closed] } := drop_made n
  simp only [listen_eq, hbind, hdrop]

theorem slot_opened (cfg : Config) (n : Network) (key : Endpoint) :
    (cfg.opened n key).slot n.slots.length =
      .listening (Descriptor.local key.cid key.port) n.queues.length := by
  rw [slot_of_slots_append (n := n) rfl, if_pos rfl]

/-- Nobody has called a listener that is new. -/
theorem filling_opened (cfg : Config) (n : Network) (key : Endpoint) :
    Filling n.slots.length n.queues.length (max 1 cfg.backlog.toNat)
      (Descriptor.local key.cid key.port) [] (cfg.opened n key) where
  listening := slot_opened cfg n key
  room := ⟨Queue.ofBacklog cfg.backlog, List.getElem?_concat_length, rfl, Nat.zero_le _⟩
  waiting := by
    have hqueue : (cfg.opened n key).queues[n.queues.length]? =
        some (Queue.ofBacklog cfg.backlog) := List.getElem?_concat_length
    rw [waitingIn_of_getElem? hqueue]
    simp [Queue.ofBacklog]
  answered := by simp

/-- A server is set up exactly when the endpoint that its address stands for is free: the wildcards
stand for the context of the network and for the next free port. It then has a listener whose
address is that endpoint, the one that the registry gains. For as long as the listener lives and
has accepted nobody, of all that call it the first are let in, as many as it has places, and the
later ones are refused. If the endpoint is taken, nothing changes but that a socket was made and
given up, and whoever owns the endpoint still does. -/
theorem opened_of_run {cid : UInt32} {tr : List Moment} (h : Network.Run (.ofCid cid) tr n)
    (cfg : Config)
    (hfree : cfg.bind.port = anyPort →
      ∃ p, HandedOut p ∧ n.registry.has ⟨n.home cfg.bind, p⟩ = false) :
    ∃ key, n.Names cfg.bind key ∧ key.port ≠ anyPort ∧
      (n.registry.has key = false → ∃ l n', listen Network.transport cfg n = some (.ok l, n') ∧
        l.handle.socket = n.slots.length ∧ l.own = Descriptor.local key.cid key.port ∧
        n'.localAddr l.handle.socket = some (.ok l.own, n') ∧
        n'.slots = n.slots ++ [.listening l.own n.queues.length] ∧
        n'.registry = n.registry ++ [(key, some n.queues.length)] ∧
        n'.queues = n.queues ++ [Queue.ofBacklog cfg.backlog] ∧
        n'.connections = n.connections ∧ n'.counter = n.counterAfter cfg.bind key ∧
        ∀ tr' m, Network.Run n' tr' m →
          (∀ x ∈ tr', x.2 ≠ .dropped l.handle.socket ∧
            ∀ y, x.2 ≠ .answered (.accept l.handle.socket) (.ok y)) →
          (∀ i r, (attempts l.own.endpoint tr')[i]? = some r →
            r = if i < max 1 cfg.backlog.toNat then .ok ()
              else .error (.plain .connectionRefused)) ∧
          ∀ t bound target, m.slot t = Slot.ofCaller bound → target.endpoint = l.own.endpoint →
            (bound = none → ∃ p, HandedOut p ∧ m.registry.has ⟨m.cid, p⟩ = false) →
            ∃ m', m.connect t target =
              some (if (attempts l.own.endpoint tr').length < max 1 cfg.backlog.toNat then .ok ()
                else .error (.plain .connectionRefused), m')) ∧
      (n.registry.has key = true → ∃ n',
        listen Network.transport cfg n =
          some (.error (.bind cfg.bind (.plain .addrInUse)), n') ∧
        n' = { n with slots := n.slots ++ [.closed] } ∧
        ∃ s x, (n.slot s).holding? = some (key, x) ∧ n'.slot s = n.slot s ∧
          n'.registry.get? key = some x) := by
  have ho := owned_of_run h (owned_ofCid cid)
  obtain ⟨key, hk⟩ := exists_names ho.counter hfree
  refine ⟨key, hk, hk.port_ne ho.counter, ?_, ?_⟩
  · intro hf
    have hl := listen_of_free hk ho.counter hf
    refine ⟨_, _, hl, rfl, rfl, ?_, rfl, rfl, rfl, rfl, rfl, ?_⟩
    · exact localAddr_of_own? (by rw [Config.listener, slot_opened]; rfl)
    intro tr' m hr hlives
    obtain ⟨-, tr₁, hrun, -⟩ := of_listen hl
    have ho' := owned_of_run hrun ho
    have hfill := (filling_opened cfg n key).of_run ho' hr hlives
    exact ⟨hfill.answered, fun t bound target => hfill.next (owned_of_run hr ho')⟩
  · intro ht
    refine ⟨_, listen_of_taken hk ht, rfl, ?_⟩
    obtain ⟨x, hx⟩ := Option.isSome_iff_exists.mp ht
    obtain ⟨s, hs⟩ := ho.exists_owner hx
    refine ⟨s, x, hs, ?_, hx⟩
    have hlt := (List.getElem?_eq_some_iff.mp (Owned.getElem?_of_holding? hs)).1
    rw [slot_of_slots_append (n := n) rfl, if_neg (Nat.ne_of_lt hlt)]

/-- With the first port in use a wildcard address stands for the second. A queue of no length has
one place, so that the second to call while nobody is accepted is refused. -/
theorem opened_of_wildcard_run :
    ∃ tr n l n', Network.Run (.ofCid 3) tr n ∧
      listen Network.transport { bind := Descriptor.bind anyCid anyPort, backlog := 0 } n =
        some (.ok l, n') ∧
      l.own = Descriptor.local 3 40001 ∧
      n'.registry = [(⟨3, 40000⟩, none), (⟨3, 40001⟩, some 0)] ∧
      ∀ tr' m r, Network.Run n' tr' m →
        (∀ x ∈ tr', x.2 ≠ .dropped 1 ∧ ∀ y, x.2 ≠ .answered (.accept 1) (.ok y)) →
        (attempts ⟨3, 40001⟩ tr')[1]? = some r → r = .error (.plain .connectionRefused) := by
  have h := Network.Run.nil (n := .ofCid 3)
    |>.snoc (.call (q := .socket) rfl)
    |>.snoc (.call (q := .bind 0 (Descriptor.bind 3 40000)) rfl)
  obtain ⟨key, hk, -, hfree, -⟩ :=
    opened_of_run h { bind := Descriptor.bind anyCid anyPort, backlog := 0 }
      fun _ => ⟨40001, by unfold HandedOut; decide, rfl⟩
  have hkey : key = ⟨3, 40001⟩ := by
    refine hk.unique (.chosen rfl ⟨rfl, 1, rfl, fun j hj => ?_⟩)
    cases Nat.lt_one_iff.mp hj
    rfl
  subst hkey
  obtain ⟨l, n', hl, hsocket, hown, -, -, hreg, -, -, -, hlater⟩ := hfree rfl
  rw [hsocket, hown] at hlater
  exact ⟨_, _, l, n', h, hl, hown, hreg, fun tr' m r hr hlives => (hlater tr' m hr hlives).1 1 r⟩

end Server
end Handoff
