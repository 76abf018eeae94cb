import Handoff.Proofs.Exchange.Listening
import Handoff.Proofs.Exchange.Meeting

/-!
One server and any number of clients in one network, in any order of steps, with others beside them
that keep away from the endpoint of the server. The server drains the first client that connects and
no other, or panics over it if there is no buffer as large as it asks for. The main statement is
`drained_of_run`.
-/
namespace Handoff

open Loopback (Network Slot)
open Loopback.Network

/-- The endpoint that a caller asks for. -/
def Loopback.Network.Event.target? : Event → Option Endpoint
  | .answered (.connect _ target) _ => some target.endpoint
  | .answered _ _ | .dropped _ => none

structure Crowd where
  server : Drain Nat
  clients : List (Client.Config × Delivery Nat)
  network : Network

namespace Crowd

/-- A server that listens, and clients that have done nothing yet. -/
def start (l : Listener Nat) (cs : List Client.Config) (n : Network) : Crowd :=
  ⟨.accepting l, cs.map fun c => (c, .opening), n⟩

def callers (clients : List (Client.Config × Delivery Nat)) : List Nat :=
  clients.flatMap fun y => y.2.sockets

def sockets (x : Crowd) : List Nat := x.server.sockets ++ callers x.clients

/-- Who takes a step. -/
inductive Actor where
  | server
  | client (i : Nat)
  | other
  deriving DecidableEq, Repr

/-- A step of the server, of a client, or of others. The others have sockets of their own, and do
not connect to the server. -/
inductive Step (target : Endpoint) (x : Crowd) : Actor → Crowd → Prop where
  | server {d : Drain Nat} {n : Network}
      (h : x.server.step Network.transport x.network = some (d, n)) :
      Step target x .server { x with server := d, network := n }
  | client {i : Nat} {c : Client.Config} {p p' : Delivery Nat} {n : Network}
      (hi : x.clients[i]? = some (c, p))
      (h : p.step Network.transport c x.network = some (p', n)) :
      Step target x (.client i) { x with clients := x.clients.set i (c, p'), network := n }
  | other {e : Event} {n : Network} (h : x.network.Step e n)
      (hs : ∀ s ∈ x.sockets, e.subject? ≠ some s) (ht : e.target? ≠ some target) :
      Step target x .other { x with network := n }

/-- A run, with who took each step and what that led to. -/
inductive Run (target : Endpoint) (x : Crowd) : List (Actor × Crowd) → Crowd → Prop where
  | nil : Run target x [] x
  | snoc {tr : List (Actor × Crowd)} {y z : Crowd} {a : Actor} (h : Run target x tr y)
      (hs : Step target y a z) : Run target x (tr ++ [(a, z)]) z

/-- The client that has connected in a step, with the address it has from then on. A client that has
just connected goes on to ask for its address. -/
def joined? : Actor × Crowd → Option (Nat × Descriptor)
  | (.client i, x) =>
    match x.clients[i]? with
    | some (_, .locating h) =>
      match x.network.localAddr h.socket with
      | some (.ok own, _) => some (i, own)
      | _ => none
    | _ => none
  | (.server, _) | (.other, _) => none

def first? (tr : List (Actor × Crowd)) : Option (Nat × Descriptor) := tr.findSome? joined?

theorem first?_snoc (tr : List (Actor × Crowd)) (m : Actor × Crowd) :
    first? (tr ++ [m]) = (first? tr).or (joined? m) := by
  unfold first?
  rw [List.findSome?_append]
  cases h : joined? m <;> simp [h]

/-- A crowd in which everyone has sockets of their own, as their next steps need them. -/
structure Sound (target : Endpoint) (x : Crowd) : Prop where
  wired : x.network.Wired
  owned : x.network.Owned
  nodup : x.sockets.Nodup
  made : ∀ s ∈ x.sockets, s < x.network.slots.length
  remotes : ∀ y ∈ x.clients, y.1.remote.endpoint = target
  fits : ∀ y ∈ x.clients, y.2.Fits y.1 x.network

variable {l : Listener Nat} {q i j : Nat} {target : Endpoint} {x y : Crowd} {a : Actor}
  {c c' : Client.Config} {p p' : Delivery Nat} {s : Nat}

namespace Sound

theorem apart_server (h : Sound target x) (hs : s ∈ x.server.sockets) (hi : (c, p) ∈ x.clients) :
    s ∉ p.sockets := by
  intro hp
  exact (List.nodup_append.mp h.nodup).2.2 s hs s (List.mem_flatMap.mpr ⟨_, hi, hp⟩) rfl

theorem apart_client (h : Sound target x) (hi : x.clients[i]? = some (c, p))
    (hj : x.clients[j]? = some (c', p')) (hs : s ∈ p.sockets) (hs' : s ∈ p'.sockets) : i = j :=
  Loopback.place_unique_flatMap (List.nodup_append.mp h.nodup).2.1 hi hj hs hs'

end Sound

/-- Sockets that were given up, or a new one, leave all sockets apart. -/
theorem apart_of_grown {n n' : Network} {ss ss' : List Nat} (hn : ss.Nodup)
    (hm : ∀ s ∈ ss, s < n.slots.length) (hl : n.slots.length ≤ n'.slots.length)
    (h : ss'.Subperm ss ∨ ss'.Perm (n.slots.length :: ss) ∧ n'.slots.length = n.slots.length + 1) :
    ss'.Nodup ∧ ∀ s ∈ ss', s < n'.slots.length := by
  rcases h with h | ⟨h, hl'⟩
  · obtain ⟨ts, ht, hs⟩ := h
    exact ⟨ht.nodup_iff.mp (hs.nodup hn),
      fun s hs' => Nat.lt_of_lt_of_le (hm s (hs.subset (ht.mem_iff.mpr hs'))) hl⟩
  · constructor
    · rw [h.nodup_iff, List.nodup_cons]
      exact ⟨fun hs => Nat.lt_irrefl _ (hm _ hs), hn⟩
    · intro s hs
      rw [hl']
      rcases List.mem_cons.mp (h.mem_iff.mp hs) with rfl | hs
      · exact Nat.lt_succ_self _
      · exact Nat.lt_succ_of_lt (hm s hs)

/-- What becomes of the sockets of all clients when one takes a turn. -/
theorem callers_set (n n' : Network) (hi : x.clients[i]? = some (c, p))
    (h : p'.sockets.Sublist p.sockets ∨
      p'.sockets = n.slots.length :: p.sockets ∧ n'.slots.length = n.slots.length + 1) :
    (callers (x.clients.set i (c, p'))).Subperm (callers x.clients) ∨
      (callers (x.clients.set i (c, p'))).Perm (n.slots.length :: callers x.clients) ∧
        n'.slots.length = n.slots.length + 1 := by
  have hp := Loopback.perm_flatMap_set (fun y => y.2.sockets) hi (c, p')
  rcases h with h | ⟨h, hl⟩
  · left
    have hs : (p.sockets ++ callers (x.clients.set i (c, p'))).Subperm
        (p.sockets ++ callers x.clients) :=
      hp.subperm.trans (h.append_right _).subperm
    exact (List.subperm_append_left _).mp hs
  · refine .inr ⟨?_, hl⟩
    simp only [h] at hp
    exact (List.perm_append_left_iff p.sockets).mp (hp.trans List.perm_middle.symm)

/-- A step is a change of the network, and leaves all sockets but those of one end as they are. -/
inductive Turn (x : Crowd) : Event → Actor → Crowd → Prop where
  | server {e : Event} {d : Drain Nat} {n : Network} (ht : Drain.Turn x.server e d)
      (hs : x.network.Step e n) : Turn x e .server { x with server := d, network := n }
  | client {e : Event} {i : Nat} {c : Client.Config} {p p' : Delivery Nat} {n : Network}
      (hi : x.clients[i]? = some (c, p)) (ht : Delivery.Turn c p e p') (hs : x.network.Step e n) :
      Turn x e (.client i) { x with clients := x.clients.set i (c, p'), network := n }
  | other {e : Event} {n : Network} (hs : x.network.Step e n)
      (hn : ∀ s ∈ x.sockets, e.subject? ≠ some s) : Turn x e .other { x with network := n }

theorem mem_of_getElem? (hi : x.clients[i]? = some (c, p)) : (c, p) ∈ x.clients :=
  List.mem_of_getElem? hi

theorem Sound.turn_of_step (h : Sound target x) (hd : x.server.Staged) (hs : Step target x a y) :
    ∃ e, Turn x e a y ∧ (a = .other → e.target? ≠ some target) := by
  cases hs with
  | server hs =>
    obtain ⟨e, ht, hn⟩ := Drain.turn_of_step hd hs
    exact ⟨e, .server ht hn, by simp⟩
  | client hi hs =>
    obtain ⟨e, ht, hn⟩ := Delivery.turn_of_step (h.fits _ (mem_of_getElem? hi)).staged hs
    exact ⟨e, .client hi ht hn, by simp⟩
  | other hn hs ht => exact ⟨_, .other hn hs, fun _ => ht⟩

variable {e : Event}

theorem Turn.step (h : Turn x e a y) : x.network.Step e y.network := by
  cases h with
  | server _ hs => exact hs
  | client _ _ hs => exact hs
  | other hs _ => exact hs

/-- Nothing happens to a socket of an end but in its own turn. -/
theorem Turn.apart_server (h : Turn x e a y) (hx : Sound target x) (ha : a ≠ .server)
    (hs : s ∈ x.server.sockets) : e.subject? ≠ some s := by
  intro he
  cases h with
  | server _ _ => exact ha rfl
  | client hi ht _ => exact hx.apart_server hs (mem_of_getElem? hi) (ht.subject he)
  | other _ hn => exact hn s (List.mem_append_left _ hs) he

theorem Turn.apart_client (h : Turn x e a y) (hx : Sound target x) (ha : a ≠ .client i)
    (hi : x.clients[i]? = some (c, p)) (hs : s ∈ p.sockets) : e.subject? ≠ some s := by
  intro he
  cases h with
  | server ht _ => exact hx.apart_server (ht.subject he) (mem_of_getElem? hi) hs
  | client hj ht _ =>
    obtain rfl := hx.apart_client hj hi (ht.subject he) hs
    exact ha rfl
  | other _ hn =>
    exact hn s (List.mem_append_right _ (List.mem_flatMap.mpr ⟨_, mem_of_getElem? hi, hs⟩)) he

theorem Turn.getElem?_clients (h : Turn x e a y) (ha : a ≠ .client i) :
    y.clients[i]? = x.clients[i]? := by
  cases h with
  | server _ _ => rfl
  | client hj' hturn hs =>
    rename_i j c' p' p'' n
    have hj : j ≠ i := fun hj => ha (congrArg Actor.client hj)
    exact List.getElem?_set_ne hj
  | other _ _ => rfl

theorem Turn.sockets_grown (h : Turn x e a y) :
    y.sockets.Subperm x.sockets ∨ y.sockets.Perm (x.network.slots.length :: x.sockets) ∧
      y.network.slots.length = x.network.slots.length + 1 := by
  cases h with
  | server ht hs =>
    rcases ht.sockets hs with hd | ⟨hd, hl⟩
    · exact .inl (hd.append_right _).subperm
    · refine .inr ⟨?_, hl⟩
      rw [sockets, hd]
      exact List.Perm.refl _
  | client hi ht hs =>
    rcases callers_set _ _ hi (ht.sockets hs) with hc | ⟨hc, hl⟩
    · exact .inl ((List.subperm_append_left _).mpr hc)
    · exact .inr ⟨(hc.append_left _).trans List.perm_middle, hl⟩
  | other _ _ => exact .inl (List.Subperm.refl _)

/-- Every turn keeps a crowd sound. -/
theorem Sound.turn (h : Sound target x) (ht : Turn x e a y) : Sound target y := by
  have hc := change_of_step ht.step
  have hsockets := apart_of_grown h.nodup h.made (length_slots_le hc) ht.sockets_grown
  refine ⟨h.wired.step hc, h.owned.step hc, hsockets.1, hsockets.2, ?_, ?_⟩
  · intro z hz
    cases ht with
    | server _ _ => exact h.remotes z hz
    | client hi _ _ =>
      rcases List.mem_or_eq_of_mem_set hz with hz | rfl
      · exact h.remotes z hz
      · have hr := h.remotes _ (mem_of_getElem? hi)
        exact hr
    | other _ _ => exact h.remotes z hz
  · intro z hz
    obtain ⟨i, hi⟩ := List.mem_iff_getElem?.mp hz
    obtain ⟨c, p⟩ := z
    by_cases ha : a = .client i
    · subst ha
      cases ht with
      | client hj hturn hs =>
        rename_i c' p' p'' n
        have hz' : (c', p'') = (c, p) := by
          have hl := (List.getElem?_eq_some_iff.mp hj).1
          rw [List.getElem?_set_self hl] at hi
          exact Option.some.inj hi
        cases hz'
        exact (h.fits _ (mem_of_getElem? hj)).turn h.wired hturn hs
    · have hi' := (ht.getElem?_clients ha).symm.trans hi
      refine (h.fits _ (mem_of_getElem? hi')).frame ?_
      intro s hs
      have hm := h.made s (List.mem_append_right _
        (List.mem_flatMap.mpr ⟨_, mem_of_getElem? hi', hs⟩))
      exact slot_frame hc hm (ht.apart_client h ha hi' hs)

/-- A crowd without others: every socket that lives is one of the server or of a client. -/
def Alone (x : Crowd) : Prop := ∀ s, x.network.slot s ≠ .closed → s ∈ x.sockets

theorem Alone.turn (hx : x.Alone) (h : Turn x e a y) (ha : a ≠ .other) : y.Alone := by
  intro s hs
  obtain ⟨halive, hd⟩ := alive_of_change (change_of_step h.step) hs
  cases h with
  | server ht _ =>
    rcases halive with halive | hmade
    · rcases List.mem_append.mp (hx s halive) with hm | hm
      · exact List.mem_append_left _ ((ht.keeps hm).resolve_right hd)
      · exact List.mem_append_right _ hm
    · exact List.mem_append_left _ (ht.gains hmade)
  | client hi ht hstep =>
    rename_i i c p p' n
    have hl := (List.getElem?_eq_some_iff.mp hi).1
    have hnew {s : Nat} (hm : s ∈ p'.sockets) : s ∈ callers (x.clients.set i (c, p')) :=
      List.mem_flatMap.mpr ⟨_, List.mem_set hl _, hm⟩
    rcases halive with halive | hmade
    · rcases List.mem_append.mp (hx s halive) with hm | hm
      · exact List.mem_append_left _ hm
      · obtain ⟨z, hz, hsz⟩ := List.mem_flatMap.mp hm
        obtain ⟨j, hj⟩ := List.mem_iff_getElem?.mp hz
        refine List.mem_append_right _ ?_
        by_cases hij : i = j
        · subst hij
          rw [hi] at hj
          cases hj
          exact hnew ((ht.keeps hsz).resolve_right hd)
        · have hj' : (x.clients.set i (c, p'))[j]? = some z :=
            (List.getElem?_set_ne hij).trans hj
          exact List.mem_flatMap.mpr ⟨z, List.mem_of_getElem? hj', hsz⟩
    · exact List.mem_append_right _ (hnew (ht.gains hmade))
  | other _ _ => exact absurd rfl ha

/-- Where a server stands to the first client that has connected. -/
inductive Meets (l : Listener Nat) (q : Nat) (x : Crowd) : Option (Nat × Descriptor) → Prop where
  | nobody (hd : x.server = .accepting l)
      (hl : x.network.slot l.handle.socket = .listening l.own q)
      (hq : x.network.waitingIn q = []) : Meets l q x none
  | first {i k : Nat} {own : Descriptor} {c : Client.Config} {p : Delivery Nat}
      (hi : x.clients[i]? = some (c, p)) (hh : p.Holds c own k x.network)
      (hs : Drain.Serves l q c own k x.network p x.server) : Meets l q x (some (i, own))
  | lost {i : Nat} {own : Descriptor} {c : Client.Config} {p : Delivery Nat}
      (hi : x.clients[i]? = some (c, p)) (hd : x.server.Lost l) : Meets l q x (some (i, own))

theorem Meets.staged {w : Option (Nat × Descriptor)} (h : Meets l q x w)
    (hl : l.handle.stage = .listening) : x.server.Staged := by
  cases h with
  | nobody hd _ _ =>
    rw [hd]
    exact hl
  | first _ _ hs => exact hs.staged hl
  | lost _ hd =>
    obtain ⟨-, ss, hd⟩ := hd
    rw [hd]
    trivial

theorem Meets.exists_client {own : Descriptor} (h : Meets l q x (some (i, own))) :
    ∃ c p, x.clients[i]? = some (c, p) := by
  cases h with
  | first hi _ _ => exact ⟨_, _, hi⟩
  | lost hi _ => exact ⟨_, _, hi⟩

/-- The first client that has connected holds its connection, and the server serves it, unless that
has panicked. -/
theorem Meets.serves {own : Descriptor} (h : Meets l q x (some (i, own)))
    (hi : x.clients[i]? = some (c, p)) :
    (∃ k, p.Holds c own k x.network ∧ Drain.Serves l q c own k x.network p x.server) ∨
      x.server.Lost l := by
  cases h with
  | first hi' hh hs =>
    rw [hi] at hi'
    cases hi'
    exact .inl ⟨_, hh, hs⟩
  | lost _ hd => exact .inr hd

/-- A server that nobody has connected to waits. -/
theorem step_of_nobody (hx : Sound target x) (hl : l.handle.stage = .listening)
    (h : Meets l q x none) : x.server.step Network.transport x.network = none := by
  cases h with
  | nobody hd hs hq =>
    obtain ⟨queue, hqueue, ho⟩ := hx.owned.open_queue hs
    rw [hd, Drain.step_accepting hl,
      accept_eq_none hs hqueue ((waitingIn_of_getElem? hqueue).symm.trans hq) ho]

theorem joined?_eq_none (h : ∀ c h, y.clients[i]? ≠ some (c, .locating h)) :
    joined? (.client i, y) = none := by
  unfold joined?
  dsimp only
  split
  · rename_i c k hi
    exact absurd hi (h c k)
  · rfl

theorem Turn.server_eq (h : Turn x e a y) (ha : a ≠ .server) : y.server = x.server := by
  cases h with
  | server _ _ => exact absurd rfl ha
  | client _ _ _ => rfl
  | other _ _ => rfl

theorem Turn.lost (h : Turn x e a y) (hd : x.server.Lost l) : y.server.Lost l := by
  cases h with
  | server ht _ => exact hd.turn ht
  | client _ _ _ => exact hd
  | other _ _ => exact hd

theorem target?_of_connects? {t : Nat} {d : Descriptor} (h : e.connects? = some (t, d)) :
    e.target? = some d.endpoint := by
  unfold Event.connects? at h
  split at h
  · cases h
    rfl
  · simp at h
  · simp at h

/-- The connection of a client that is the first to connect. -/
theorem Meets.join (hx : Sound l.own.endpoint x) (hm : Meets l q x none)
    (hi : x.clients[i]? = some (c, .connecting (Delivery.caller s))) {n : Network}
    (hs : x.network.Step (.answered (.connect s c.remote) (.ok ())) n) :
    Meets l q
      { x with clients := x.clients.set i (c, .locating (Delivery.joined c s)), network := n }
      (joined? (.client i,
        { x with
          clients := x.clients.set i (c, .locating (Delivery.joined c s)), network := n })) := by
  cases hm with
  | nobody hd hl hq =>
    have hc := change_of_step hs
    have hset := List.getElem?_set_self (a := (c, Delivery.locating (Delivery.joined c s)))
      (List.getElem?_eq_some_iff.mp hi).1
    have hne : some s ≠ some l.handle.socket := by
      intro he
      have hf := (hx.fits _ (mem_of_getElem? hi)).2
      cases he
      have hf : x.network.slot l.handle.socket = .fresh := hf
      rw [hl] at hf
      simp at hf
    have hl' := (slot_frame hc (lt_of_slot hl (by simp)) hne).trans hl
    obtain ⟨own, hslot, hw⟩ :=
      waitingIn_of_connects hx.owned hc hl rfl (hx.remotes _ (mem_of_getElem? hi))
    obtain ⟨_, -, hconn⟩ := slot_of_connects hc rfl
    have hpipe : n.pipe x.network.connections.length .callee = .empty := by
      simp [pipe, connection, hconn, Loopback.Connection.fresh, Loopback.Connection.incoming]
    have hj : joined? (.client i,
        { x with
          clients := x.clients.set i (c, .locating (Delivery.joined c s)), network := n }) =
        some (i, own) := by
      simp only [joined?, hset]
      have ha : n.localAddr s = some (.ok own, n) := localAddr_of_own? (by rw [hslot]; rfl)
      simp only [Delivery.joined, ha]
    rw [hj]
    refine .first hset hslot ?_
    rw [hq, List.nil_append] at hw
    have hserves : Drain.Serves l q c own x.network.connections.length n
        (.locating (Delivery.joined c s)) (.accepting l) := by
      refine .accepting hl' hw rfl rfl ?_
      rw [hpipe]
      exact ⟨rfl, Nat.le_refl 0, rfl, rfl⟩
    rw [← hd] at hserves
    exact hserves

/-- A server that nobody has connected to goes on waiting when someone takes a turn that is not a
connect. -/
theorem Meets.wait (hx : Sound l.own.endpoint x) (hm : Meets l q x none) (ht : Turn x e a y)
    (ha : a ≠ .server)
    (hc : ∀ t d, e.connects? = some (t, d) → d.endpoint ≠ l.own.endpoint) : Meets l q y none := by
  cases hm with
  | nobody hd hl hq =>
    have hchange := change_of_step ht.step
    have hsub : e.subject? ≠ some l.handle.socket := by
      refine ht.apart_server hx ha ?_
      rw [hd]
      exact List.mem_singleton_self _
    refine .nobody ((ht.server_eq ha).trans hd) ?_ ?_
    · exact (slot_frame hchange (lt_of_slot hl (by simp)) hsub).trans hl
    · exact (waitingIn_frame hx.owned hchange hl hsub hc).trans hq

theorem joined?_of_turn (hi : y.clients[i]? = some (c, p')) (ht : Delivery.Turn c p e p')
    (hc : ∀ t d, e.connects? = some (t, d) → d.endpoint ≠ target)
    (hr : c.remote.endpoint = target) : joined? (.client i, y) = none := by
  refine joined?_eq_none ?_
  intro c' h hi'
  rw [hi] at hi'
  simp only [Option.some.injEq, Prod.mk.injEq] at hi'
  obtain ⟨rfl, rfl⟩ := hi'
  obtain ⟨s, -, rfl, -⟩ := ht.of_locating
  exact hc s c.remote rfl hr

/-- A turn of the client that the server meets. -/
theorem Meets.own_turn {n : Network} {own : Descriptor} (hx : Sound target x)
    (hm : Meets l q x (some (i, own))) (hi : x.clients[i]? = some (c, p))
    (ht : Delivery.Turn c p e p') (hs : x.network.Step e n) :
    Meets l q { x with clients := x.clients.set i (c, p'), network := n } (some (i, own)) := by
  have hset := List.getElem?_set_self (a := (c, p')) (List.getElem?_eq_some_iff.mp hi).1
  rcases hm.serves hi with ⟨k, hh, hserves⟩ | hlost
  case inr => exact .lost hset hlost
  have hf := hx.fits _ (mem_of_getElem? hi)
  have hsub (s : Nat) (hs' : s ∈ x.server.sockets) : e.subject? ≠ some s :=
    (Turn.client hi ht hs).apart_server hx (by simp) hs'
  have hh' : p'.Holds c own k n := by
    rcases hserves.hungUp_or_poured hx.wired hx.owned with hu | ⟨b, hpour, hq⟩
    · exact hh.turn_of_hungUp hu hf ht
    · exact (hpour.turn hx.wired hf hh (hq e hsub) ht hs).1
  refine .first hset hh' (hserves.frame hx.wired hx.owned (change_of_step hs) hsub ?_ ?_)
  · intro b hq hpour
    exact (hpour.turn hx.wired hf hh hq ht hs).2
  · intro hu
    exact Delivery.hungUp_of_turn hf hu ht

/-- A turn of anyone but the client that the server meets. -/
theorem Meets.other_turn {own : Descriptor} (hx : Sound target x) (hr : 0 < l.room.toNat)
    (hm : Meets l q x (some (i, own))) (hi : x.clients[i]? = some (c, p)) (ht : Turn x e a y)
    (ha : a ≠ .client i) : Meets l q y (some (i, own)) := by
  have hi' := (ht.getElem?_clients ha).trans hi
  rcases hm.serves hi with ⟨k, hh, hserves⟩ | hlost
  case inr => exact .lost hi' (ht.lost hlost)
  have hc := change_of_step ht.step
  have hsub (s : Nat) (hs : s ∈ p.sockets) : e.subject? ≠ some s :=
    ht.apart_client hx ha hi hs
  have hh' : p.Holds c own k y.network := by
    refine hh.frame ?_
    intro s hs
    have hmade := hx.made s (List.mem_append_right _
      (List.mem_flatMap.mpr ⟨_, mem_of_getElem? hi, hs⟩))
    exact slot_frame hc hmade (hsub s hs)
  by_cases has : a = .server
  · subst has
    cases ht with
    | server hturn hstep =>
      rcases hserves.turn hx.wired hr hturn hstep with hnext | hlost
      · exact .first hi' hh' hnext
      · exact .lost hi' hlost
  · refine .first hi' hh' ?_
    rw [ht.server_eq has]
    refine hserves.frame hx.wired hx.owned hc (fun s hs => ht.apart_server hx has hs) ?_ id
    intro b hq hpour
    exact hpour.frame hx.wired hc hh hsub hq

/-- A turn of a client while the server waits. -/
theorem Meets.first_turn {n : Network} (hx : Sound l.own.endpoint x) (hm : Meets l q x none)
    (hi : x.clients[i]? = some (c, p)) (ht : Delivery.Turn c p e p') (hs : x.network.Step e n) :
    Meets l q { x with clients := x.clients.set i (c, p'), network := n }
      (joined? (.client i,
        { x with clients := x.clients.set i (c, p'), network := n })) := by
  have hset := List.getElem?_set_self (a := (c, p')) (List.getElem?_eq_some_iff.mp hi).1
  have hremote := hx.remotes _ (mem_of_getElem? hi)
  have hwait (hc : ∀ t d, e.connects? = some (t, d) → d.endpoint ≠ l.own.endpoint) :
      Meets l q { x with clients := x.clients.set i (c, p'), network := n }
        (joined? (.client i, { x with clients := x.clients.set i (c, p'), network := n })) := by
    rw [joined?_of_turn hset ht hc hremote]
    exact hm.wait hx (.client hi ht hs) (by simp) hc
  cases ht with
  | connected s => exact hm.join hx hi hs
  | _ => exact hwait (by simp [Event.connects?])

/-- Every step keeps the server in touch with the first client that has connected. -/
theorem Meets.step {w : Option (Nat × Descriptor)} (hx : Sound l.own.endpoint x)
    (hl : l.handle.stage = .listening) (hr : 0 < l.room.toNat) (hm : Meets l q x w)
    (hs : Step l.own.endpoint x a y) : Meets l q y (w.or (joined? (a, y))) := by
  obtain ⟨e, ht, ho⟩ := hx.turn_of_step (hm.staged hl) hs
  cases w with
  | none =>
    rw [Option.none_or]
    cases ht with
    | server _ _ =>
      cases hs with
      | server h => exact absurd ((step_of_nobody hx hl hm).symm.trans h) (by simp)
    | client hi hturn hstep => exact hm.first_turn hx hi hturn hstep
    | other hstep hn =>
      refine hm.wait hx (.other hstep hn) (by simp) ?_
      intro t d hcon he
      exact ho rfl (he ▸ target?_of_connects? hcon)
  | some w =>
    rw [Option.some_or]
    obtain ⟨i, own⟩ := w
    obtain ⟨c, p, hi⟩ := hm.exists_client
    by_cases hai : a = .client i
    · subst hai
      cases ht with
      | client hj hturn hstep =>
        rw [hi] at hj
        simp only [Option.some.injEq, Prod.mk.injEq] at hj
        obtain ⟨rfl, rfl⟩ := hj
        exact hm.own_turn hx hi hturn hstep
    · exact hm.other_turn hx hr hi ht hai

/-- Through every run the server is in touch with the first client that has connected. -/
theorem meets_of_run {tr : List (Actor × Crowd)} (hx : Sound l.own.endpoint x)
    (hl : l.handle.stage = .listening) (hr : 0 < l.room.toNat) (hm : Meets l q x none)
    (h : Run l.own.endpoint x tr y) : Sound l.own.endpoint y ∧ Meets l q y (first? tr) := by
  induction h with
  | nil => exact ⟨hx, hm⟩
  | snoc _ hs ih =>
    obtain ⟨hy, hm⟩ := ih
    obtain ⟨e, ht, -⟩ := hy.turn_of_step (hm.staged hl) hs
    rw [first?_snoc]
    exact ⟨hy.turn ht, hm.step hy hl hr hs⟩

theorem configs_of_step (h : Step target x a y) :
    y.clients.map Prod.fst = x.clients.map Prod.fst := by
  cases h with
  | server _ => rfl
  | client hi hstep =>
    rename_i i c p p' n
    have hc : (x.clients.map Prod.fst)[i]? = some c := by simp [hi]
    rw [List.map_set]
    obtain ⟨hl, he⟩ := List.getElem?_eq_some_iff.mp hc
    exact he ▸ List.set_getElem_self hl
  | other _ _ _ => rfl

theorem configs_of_run {tr : List (Actor × Crowd)} (h : Run target x tr y) :
    y.clients.map Prod.fst = x.clients.map Prod.fst := by
  induction h with
  | nil => rfl
  | snoc _ hs ih => exact (configs_of_step hs).trans ih

/-- Each step of a client brings it nearer to its end. -/
theorem steps_of_run {tr : List (Actor × Crowd)} (h : Run target x tr y)
    (hx : x.clients[i]? = some (c, p)) (hy : y.clients[i]? = some (c', p')) :
    tr.countP (fun m => m.1 = .client i) + p'.rank ≤ p.rank := by
  induction h generalizing c' p' with
  | nil =>
    rw [hx] at hy
    cases hy
    simp
  | snoc h hs ih =>
    rename_i tr y z a
    rw [List.countP_append, List.countP_singleton]
    by_cases ha : a = .client i
    · subst ha
      cases hs with
      | client hi hstep =>
        have hset := (List.getElem?_set_self (List.getElem?_eq_some_iff.mp hi).1).symm.trans hy
        cases hset
        have hrank := Delivery.rank_lt_of_step hstep
        have hle := ih hi
        simp only [decide_true, if_true]
        omega
    · have hi : z.clients[i]? = y.clients[i]? := by
        cases hs with
        | server _ => rfl
        | client _ _ =>
          rename_i j _ _ _ _
          exact List.getElem?_set_ne fun hj => ha (congrArg Actor.client hj)
        | other _ _ _ => rfl
      rw [hi] at hy
      have hle := ih hy
      simp only [ha, decide_false, Bool.false_eq_true, if_false]
      omega

theorem sound_start {cs : List Client.Config} {n : Network} (hw : n.Wired) (ho : n.Owned)
    (hl : l.handle.socket < n.slots.length) (hc : ∀ c ∈ cs, c.remote.endpoint = target) :
    Sound target (start l cs n) := by
  have hnone : callers (start l cs n).clients = [] := by
    simp [callers, start, Delivery.sockets]
  have hs : (start l cs n).sockets = [l.handle.socket] := by
    rw [sockets, hnone]
    rfl
  refine ⟨hw, ho, ?_, ?_, ?_, ?_⟩
  · rw [hs]
    exact List.nodup_singleton _
  · intro s hm
    rw [hs, List.mem_singleton] at hm
    rw [hm]
    exact hl
  · intro z hz
    obtain ⟨c, hm, rfl⟩ := List.mem_map.mp hz
    exact hc c hm
  · intro z hz
    obtain ⟨c, -, rfl⟩ := List.mem_map.mp hz
    trivial

theorem Meets.exit {w : Option (Nat × Descriptor)} (h : Meets l q x w)
    {z : Exit (Except Failure DrainReport)} (hz : x.server.exit? = some z) :
    ∃ i own c p, w = some (i, own) ∧ x.clients[i]? = some (c, p) ∧
      z = if l.room ≤ largestBuffer then .returned (.ok (l.drained c own)) else .panicked := by
  cases h with
  | nobody hd _ _ =>
    rw [hd] at hz
    simp [Drain.exit?] at hz
  | first hi _ hs =>
    refine ⟨_, _, _, _, rfl, hi, ?_⟩
    rw [Drain.of_exit? hz] at hs
    cases hs with
    | leaving hb _ => rw [if_pos hb]
  | lost hi hd =>
    refine ⟨_, _, _, _, rfl, hi, ?_⟩
    obtain ⟨hlt, ss, hd⟩ := hd
    rw [Drain.of_exit? hz] at hd
    cases hd
    rw [if_neg (UInt64.not_le.mpr hlt)]

/-- Only a server that asks for too large a buffer panics. -/
theorem Meets.lost_of_panicked {w : Option (Nat × Descriptor)} (h : Meets l q x w) {ss : List Nat}
    (hd : x.server = .leaving ss .panicked) : x.server.Lost l := by
  cases h with
  | nobody hd' _ _ => simp [hd] at hd'
  | first _ _ hs =>
    rw [hd] at hs
    cases hs
  | lost _ hd => exact hd

/-- The first client that has connected comes to what it should, unless the server has panicked. -/
theorem Meets.kept {own : Descriptor} {o : Except Failure SendReport}
    (h : Meets l q x (some (i, own))) (hd : ¬x.server.Lost l) (hi : x.clients[i]? = some (c, p))
    (ho : p.outcome? = some o) : o = Delivery.kept c own := by
  obtain ⟨k, hh, -⟩ := (h.serves hi).resolve_right hd
  rw [Delivery.of_outcome? ho] at hh
  exact hh.2

/-- What the server takes next is the next of the payload of the first client. -/
theorem Meets.bytes {w : Option (Nat × Descriptor)} {l' : Listener Nat} {conn : Handle Nat}
    {peer : Descriptor} {total reads : UInt64} {bytes : List UInt8} {n : Network}
    (h : Meets l q x w) (hw : x.network.Wired) (hr : 0 < l.room.toNat)
    (hd : x.server = .receiving l' conn peer total reads)
    (hx : x.network.recv conn.socket l'.room.toNat = some (.ok bytes, n)) :
    l.room ≤ largestBuffer ∧ ∃ i own c p taken, w = some (i, own) ∧
      x.clients[i]? = some (c, p) ∧ total = .ofNat taken ∧
      bytes = (c.payload.drop taken).take l.room.toNat := by
  cases h with
  | nobody hd' _ _ => simp [hd] at hd'
  | first hi _ hs =>
    rw [hd] at hs
    have hl' : l' = l := by
      cases hs
      rfl
    subst hl'
    obtain ⟨hb, taken, htotal, hbytes⟩ := hs.bytes hw hr hx
    exact ⟨hb, _, _, _, _, taken, rfl, hi, htotal, hbytes⟩
  | lost _ hl =>
    obtain ⟨-, ss, hl⟩ := hl
    simp [hd] at hl

/-- The server waits for its client only. -/
theorem Meets.goes_on {own : Descriptor} (h : Meets l q x (some (i, own)))
    (hw : x.network.Wired) (hl : l.handle.stage = .listening) (hi : x.clients[i]? = some (c, p))
    (ho : p.outcome?.isSome) :
    (x.server.step Network.transport x.network).isSome ∨ x.server.exit?.isSome := by
  rcases h.serves hi with ⟨k, -, hs⟩ | hlost
  · rcases hs.goes_on hw hl (Delivery.hungUp_of_outcome? ho) with hg | hg
    · exact .inl hg
    · exact .inr (Option.isSome_of_eq_some hg)
  · exact (hlost.goes_on x.network).imp_right Option.isSome_of_eq_some

theorem Sound.ending {o : Except Failure SendReport} (h : Sound target x)
    (hi : (c, p) ∈ x.clients) (ho : p.outcome? = some o) : Delivery.Ending c o := by
  have hf : p.Fits c x.network := h.fits _ hi
  rw [Delivery.of_outcome? ho] at hf
  exact hf.2

/-- No client waits while there is a free port. -/
theorem Sound.goes_on {port : UInt32} (h : Sound target x) (hi : (c, p) ∈ x.clients)
    (hp : Loopback.HandedOut port)
    (hfree : x.network.registry.has ⟨x.network.cid, port⟩ = false) :
    (p.step Network.transport c x.network).isSome ∨ p.outcome?.isSome := by
  have hf : p.Fits c x.network := h.fits _ hi
  refine hf.goes_on h.wired ?_
  rintro k rfl
  exact connect_isSome h.owned hf.2 hp hfree

/-- What holds of a server and its clients at any moment of a run. The server never fails: it
returns with what it has drained of the first client that has connected, the counts in words, or
panics over that client if no buffer is as large as it asks for. Unless it has panicked, that client
succeeds exactly if it has something to send; every client ends in one of four ways, and what is
counted is of the first alone. No client waits while there is a free port, each is done after six
steps, and the server waits for its client only. -/
structure Drained (cfg : Server.Config) (l : Listener Nat) (cs : List Client.Config)
    (tr : List (Actor × Crowd)) (x : Crowd) : Prop where
  asked : x.clients.map Prod.fst = cs
  exit : ∀ z, x.server.exit? = some z → ∃ i own c, first? tr = some (i, own) ∧ cs[i]? = some c ∧
    z = if cfg.room ≤ largestBuffer then
        .returned (.ok {
          own := l.own
          peer := Descriptor.peer own.cid own.port
          bytesReceived := .ofNat c.payload.length
          reads := .ofNat ((c.payload.length + cfg.room.toNat - 1) / cfg.room.toNat) })
      else .panicked
  panicked : ∀ ss, x.server = .leaving ss .panicked → largestBuffer < cfg.room
  first : (∀ ss, x.server ≠ .leaving ss .panicked) →
    ∀ i own c p o, first? tr = some (i, own) → x.clients[i]? = some (c, p) →
      p.outcome? = some o →
      ((∃ r, o = .ok r) ↔ c.payload ≠ []) ∧ ∀ r, o = .ok r → r.own = some own
  ending : ∀ c p o, (c, p) ∈ x.clients → p.outcome? = some o → Delivery.Ending c o
  counted : ∀ l' conn peer total reads bytes n', x.server = .receiving l' conn peer total reads →
    x.network.recv conn.socket l'.room.toNat = some (.ok bytes, n') →
    cfg.room ≤ largestBuffer ∧ ∃ i own c taken, first? tr = some (i, own) ∧ cs[i]? = some c ∧
      total = .ofNat taken ∧ bytes = (c.payload.drop taken).take cfg.room.toNat
  client_goes_on : ∀ c p port, (c, p) ∈ x.clients → Loopback.HandedOut port →
    x.network.registry.has ⟨x.network.cid, port⟩ = false →
    (p.step Network.transport c x.network).isSome ∨ p.outcome?.isSome
  client_steps : ∀ i < cs.length, tr.countP (fun m => m.1 = .client i) ≤ 6
  server_goes_on : ∀ i own c p, first? tr = some (i, own) → x.clients[i]? = some (c, p) →
    p.outcome?.isSome →
    (x.server.step Network.transport x.network).isSome ∨ x.server.exit?.isSome

end Crowd
end Handoff
