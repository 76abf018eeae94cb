import Handoff.Proofs.Loopback.Frame

/-!
Calls side by side. Connecting and giving up are made of several sections, each of them indivisible,
and other calls come in between them. A `Race` is a network with what is left of the calls under
way; a section of one call is one step of it. All other calls are one section each.
-/
namespace Handoff.Loopback

/-- What is left of a call: a caller that knows its queue has to join it, one that the queue
turned away has to give back the endpoint it was given, an end that writes no more has to stop
reading, and a socket that is gone has to give back its endpoint. -/
inductive Call where
  | joining (bound : Option Descriptor) (own target : Descriptor) (queue : Nat)
  | refused (own : Descriptor)
  | hanging (own : Descriptor) (connection : Nat) (side : Side)
  | leaving (own : Descriptor) (queue : Option Nat)
  deriving DecidableEq, Repr

/-- How a section leaves its call: under way, or at its end. -/
inductive Progress where
  | left (rest : Call)
  | connected (connection : Nat)
  | failed (e : IoError)
  | gone
  deriving DecidableEq, Repr

def Progress.rest? : Progress → Option Call
  | left rest => some rest
  | connected _ | failed _ | gone => none

namespace Network

/-- Looks the target up for a caller that may connect. -/
def lookUp (n : Network) (bound : Option Descriptor) (target : Descriptor) :
    Option (Progress × Network) :=
  match n.route bound target with
  | none => none
  | some (.error e, n) => some (.failed e, n)
  | some (.ok (q, own), n) => some (.left (.joining bound own target q), n)

/-- The first section of connecting. -/
def beginConnect (n : Network) (s : Nat) (target : Descriptor) : Option (Progress × Network) :=
  match n.slot s with
  | .fresh => n.lookUp none target
  | .bound own => n.lookUp (some own) target
  | _ => some (.failed (invalid "socket is already connected or listening"), n)

/-- The first section of giving a socket up; its slot is closed at once. Only listeners and
connected sockets need more than one. -/
def beginDrop (n : Network) (s : Nat) : Progress × Network :=
  match n.slot s with
  | .listening own q => (.left (.leaving own (some q)), (n.closeQueue q).setSlot s .closed)
  | .connected own c side =>
    (.left (.hanging own c side), (n.modifyConnection c (·.shut side .write)).setSlot s .closed)
  | _ => (.gone, n.drop s)

end Network

namespace Call

/-- An end that has hung up still has to give back the endpoint, if it has one. -/
def afterHanging (own : Descriptor) : Side → Progress
  | .caller => .left (leaving own none)
  | .callee => .gone

/-- A caller that its queue turned away still has to give back the endpoint it was given. -/
def afterRefusal (own : Descriptor) : Option Descriptor → Progress
  | some _ => .failed (.plain .connectionRefused)
  | none => .left (refused own)

/-- The next section of a call of a socket. -/
def next (s : Nat) (n : Network) : Call → Progress × Network
  | joining bound own target q =>
    match n.enqueue q own target with
    | some (c, n) => (.connected c, n.setSlot s (.connected own c .caller))
    | none => (afterRefusal own bound, n)
  | refused own => (.failed (.plain .connectionRefused), n.release own.endpoint)
  | hanging own c side => (afterHanging own side, n.modifyConnection c (·.shut side .read))
  | leaving own _ => (.gone, n.release own.endpoint)

/-- The number of sections that are left at most. -/
def rank : Call → Nat
  | joining .. | hanging .. => 2
  | refused _ | leaving .. => 1

/-- The endpoint that a call under way holds for its socket. -/
def holding? : Call → Option (Endpoint × Option Nat)
  | joining _ own _ _ | refused own | hanging own _ .caller => some (own.endpoint, none)
  | hanging _ _ .callee => none
  | leaving own q => some (own.endpoint, q)

end Call

namespace Network

/-- Whether an answer was given in one section. -/
def Event.atOnce : Event → Bool
  | .answered (.connect _ _) _ | .dropped _ => false
  | .answered _ _ => true

theorem Event.connects?_of_atOnce {e : Event} (h : e.atOnce = true) : e.connects? = none := by
  cases e with
  | dropped s => rfl
  | answered q r =>
    cases q with
    | connect s target => simp [atOnce] at h
    | socket | bind | listen | accept | send | recv | shutdown | localAddr => rfl

theorem Event.ne_dropped_of_atOnce {e : Event} (h : e.atOnce = true) (s : Nat) :
    e ≠ .dropped s := by
  rintro rfl
  simp [atOnce] at h

/-- All that one section of a call can do, by what was left of the call before. -/
inductive Section (n : Network) (s : Nat) : Option Call → Progress → Network → Prop where
  | rejected (e : IoError) : Section n s none (.failed e) n
  | routed {bound : Option Descriptor} {own target : Descriptor} {q : Nat} {m : Network}
      (hs : n.slot s = Slot.ofCaller bound)
      (hr : n.route bound target = some (.ok (q, own), m)) :
      Section n s none (.left (.joining bound own target q)) m
  | joined {bound : Option Descriptor} {own target : Descriptor} {q : Nat} {queue : Queue}
      (hq : n.queues[q]? = some queue) (ht : queue.takes = true) :
      Section n s (some (.joining bound own target q)) (.connected n.connections.length)
        { n with
          queues := n.queues.set q (queue.push {
            own := Descriptor.local target.cid target.port
            peer := Descriptor.peer own.cid own.port
            connection := n.connections.length })
          connections := n.connections ++ [.fresh]
          slots := n.slots.set s (.connected own n.connections.length .caller) }
  | turnedAway {bound : Option Descriptor} {own target : Descriptor} {q : Nat}
      (hq : ∀ queue, n.queues[q]? = some queue → queue.takes = false) :
      Section n s (some (.joining bound own target q)) (Call.afterRefusal own bound) n
  | refused (own : Descriptor) :
      Section n s (some (.refused own)) (.failed (.plain .connectionRefused))
        (n.release own.endpoint)
  | dropped (hs : (n.slot s).queue? = none) (he : (n.slot s).end? = none) :
      Section n s none .gone (n.drop s)
  | deserted {own : Descriptor} {q : Nat} (hs : n.slot s = .listening own q) :
      Section n s none (.left (.leaving own (some q))) ((n.closeQueue q).setSlot s .closed)
  | hungUp {own : Descriptor} {c : Nat} {side : Side} (hs : n.slot s = .connected own c side) :
      Section n s none (.left (.hanging own c side))
        ((n.modifyConnection c (·.shut side .write)).setSlot s .closed)
  | deafened (own : Descriptor) (c : Nat) (side : Side) :
      Section n s (some (.hanging own c side)) (Call.afterHanging own side)
        (n.modifyConnection c (·.shut side .read))
  | left (own : Descriptor) (q : Option Nat) :
      Section n s (some (.leaving own q)) .gone (n.release own.endpoint)

variable {n : Network} {s : Nat}

theorem section_of_lookUp {bound : Option Descriptor} {target : Descriptor}
    {x : Progress × Network} (hs : n.slot s = Slot.ofCaller bound)
    (h : n.lookUp bound target = some x) : Section n s none x.1 x.2 := by
  unfold lookUp at h
  split at h
  · simp at h
  · rename_i e m hr
    obtain ⟨rfl, -, -⟩ := of_route_error hr
    cases h
    exact .rejected e
  · rename_i q own m hr
    cases h
    exact .routed hs hr

theorem section_of_beginConnect {target : Descriptor} {x : Progress × Network}
    (h : n.beginConnect s target = some x) : Section n s none x.1 x.2 := by
  unfold beginConnect at h
  split at h
  · rename_i hs
    exact @section_of_lookUp n s none target x hs h
  · rename_i own hs
    exact @section_of_lookUp n s (some own) target x hs h
  · cases h
    exact .rejected _

theorem section_of_beginDrop (n : Network) (s : Nat) :
    Section n s none (n.beginDrop s).1 (n.beginDrop s).2 := by
  unfold beginDrop
  cases hs : n.slot s with
  | listening own q => exact .deserted hs
  | connected own c side => exact .hungUp hs
  | fresh | bound own | closed => exact .dropped (by rw [hs]; rfl) (by rw [hs]; rfl)

theorem section_of_next (n : Network) (s : Nat) (call : Call) :
    Section n s (some call) (call.next s n).1 (call.next s n).2 := by
  cases call with
  | joining bound own target q =>
    cases he : n.enqueue q own target with
    | some x =>
      obtain ⟨c, m⟩ := x
      obtain ⟨queue, hq, ht, rfl, rfl⟩ := of_enqueue he
      simp only [Call.next, he]
      exact .joined hq ht
    | none =>
      simp only [Call.next, he]
      exact .turnedAway (takes_of_enqueue_eq_none he)
  | refused own => exact .refused own
  | hanging own c side => exact .deafened own c side
  | leaving own q => exact .left own q

/-- Whoever is connected joined a queue that took it. -/
theorem of_section_connected {n' : Network} {call : Option Call} {p : Progress} {c : Nat}
    (h : Section n s call p n') (hp : p = .connected c) :
    ∃ bound own target q queue, call = some (.joining bound own target q) ∧
      n.queues[q]? = some queue ∧ queue.takes = true ∧ c = n.connections.length ∧
      n'.slots = n.slots.set s (.connected own c .caller) ∧
      n'.connections = n.connections ++ [.fresh] := by
  cases h with
  | joined hq ht =>
    cases hp
    exact ⟨_, _, _, _, _, rfl, hq, ht, rfl, rfl, rfl⟩
  | @turnedAway bound _ _ _ _ => cases bound <;> simp [Call.afterRefusal] at hp
  | deafened _ _ side => cases side <;> simp [Call.afterHanging] at hp
  | rejected | routed | refused | dropped | deserted | hungUp | left => simp at hp

/-- Whoever fails was turned away with an endpoint of its own, or has given back the one that was
registered for it, unless it failed at once. -/
theorem of_section_failed {n' : Network} {call : Option Call} {p : Progress} {e : IoError}
    (h : Section n s call p n') (hp : p = .failed e) :
    call = none ∧ n' = n ∨ e = .plain .connectionRefused ∧
      ((∃ b own target q, call = some (.joining (some b) own target q) ∧ n' = n) ∨
        ∃ own, call = some (.refused own) ∧ n' = n.release own.endpoint) := by
  cases h with
  | rejected => exact .inl ⟨rfl, rfl⟩
  | @turnedAway bound own target q _ =>
    cases bound with
    | none => simp [Call.afterRefusal] at hp
    | some b =>
      cases hp
      exact .inr ⟨rfl, .inl ⟨b, own, target, q, rfl, rfl⟩⟩
  | refused own =>
    cases hp
    exact .inr ⟨rfl, .inr ⟨own, rfl, rfl⟩⟩
  | deafened _ _ side => cases side <;> simp [Call.afterHanging] at hp
  | joined | routed | dropped | deserted | hungUp | left => simp at hp

/-- A call comes nearer to its end with every section. -/
theorem rank_lt_of_section {n' : Network} {call rest : Call} {p : Progress}
    (h : Section n s (some call) p n') (hr : p.rest? = some rest) : rest.rank < call.rank := by
  cases h with
  | turnedAway hq =>
    rename_i bound _ _ _
    cases bound with
    | some _ => simp [Call.afterRefusal, Progress.rest?] at hr
    | none =>
      cases hr
      exact Nat.lt_succ_self 1
  | deafened own c side =>
    cases side with
    | caller =>
      cases hr
      exact Nat.lt_succ_self 1
    | callee => simp [Call.afterHanging, Progress.rest?] at hr
  | joined | refused | left => simp [Progress.rest?] at hr

end Network

/-- A network with what is left of the calls under way, by their sockets. -/
structure Race where
  network : Network
  calls : Nat → Option Call

namespace Race

def idle (n : Network) : Race := ⟨n, fun _ => none⟩

/-- The race after a section of a call of a socket. -/
def put (R : Race) (s : Nat) (x : Progress × Network) : Race :=
  ⟨x.2, fun t => if t = s then x.1.rest? else R.calls t⟩

@[simp] theorem put_calls_same (R : Race) (s : Nat) (x : Progress × Network) :
    (R.put s x).calls s = x.1.rest? := if_pos rfl

theorem put_calls_other (R : Race) {s t : Nat} (x : Progress × Network) (h : t ≠ s) :
    (R.put s x).calls t = R.calls t := if_neg h

/-- The endpoint that a socket holds, or a call of it that is under way. -/
def holding? (R : Race) (s : Nat) : Option (Endpoint × Option Nat) :=
  match R.calls s with
  | some call => call.holding?
  | none => (R.network.slot s).holding?

/-- What happens in one step: a call made of one section is answered, or a section of a longer one
is over. -/
inductive Event : Type 1 where
  | atOnce (e : Network.Event)
  | connects (s : Nat) (target : Descriptor) (p : Progress)
  | drops (s : Nat) (p : Progress)
  | proceeds (s : Nat) (p : Progress)

/-- No socket is in two calls at a time. -/
inductive Step (R : Race) : Event → Race → Prop where
  | atOnce {e : Network.Event} {n : Network} (he : e.atOnce = true)
      (hi : ∀ s, e.subject? = some s → R.calls s = none) (h : R.network.Step e n) :
      Step R (.atOnce e) ⟨n, R.calls⟩
  | connect {s : Nat} {target : Descriptor} {x : Progress × Network} (hi : R.calls s = none)
      (h : R.network.beginConnect s target = some x) :
      Step R (.connects s target x.1) (R.put s x)
  | drop {s : Nat} (hi : R.calls s = none) :
      Step R (.drops s (R.network.beginDrop s).1) (R.put s (R.network.beginDrop s))
  | proceed {s : Nat} {call : Call} (hc : R.calls s = some call) :
      Step R (.proceeds s (call.next s R.network).1) (R.put s (call.next s R.network))

/-- A step of a race: where it was taken, and what happened. -/
abbrev Moment := Race × Event

inductive Run (R : Race) : List Moment → Race → Prop where
  | nil : Run R [] R
  | snoc {tr : List Moment} {S S' : Race} {e : Event} (h : Run R tr S) (hs : Step S e S') :
      Run R (tr ++ [(S, e)]) S'

theorem Run.trans {R S T : Race} {tr tr' : List Moment} (h : Run R tr S) (h' : Run S tr' T) :
    Run R (tr ++ tr') T := by
  induction h' with
  | nil => simpa using h
  | snoc _ hs ih =>
    rw [← List.append_assoc]
    exact .snoc ih hs

/-- Whatever every step keeps is kept by every run. -/
theorem Run.keeps {R S : Race} {tr : List Moment} {P : Race → Prop} (h : Run R tr S)
    (hp : ∀ S e S', P S → Step S e S' → P S') (h0 : P R) : P S := by
  induction h with
  | nil => exact h0
  | snoc _ hs ih => exact hp _ _ _ ih hs

/-- A step is a call made of one section, or a section of the call of one socket. -/
theorem Step.cases {R S : Race} {e : Event} (h : Step R e S) :
    (∃ e' n, e = .atOnce e' ∧ e'.atOnce = true ∧ (∀ s, e'.subject? = some s → R.calls s = none) ∧
      R.network.Step e' n ∧ S = ⟨n, R.calls⟩) ∨
    ∃ s p n, (∀ e', e ≠ .atOnce e') ∧ R.network.Section s (R.calls s) p n ∧ S = R.put s (p, n) := by
  cases h with
  | atOnce he hi h => exact .inl ⟨_, _, rfl, he, hi, h, rfl⟩
  | connect hi h =>
    refine .inr ⟨_, _, _, by simp, ?_, rfl⟩
    rw [hi]
    exact Network.section_of_beginConnect h
  | drop hi =>
    refine .inr ⟨_, _, _, by simp, ?_, rfl⟩
    rw [hi]
    exact Network.section_of_beginDrop _ _
  | proceed hc =>
    refine .inr ⟨_, _, _, by simp, ?_, rfl⟩
    rw [hc]
    exact Network.section_of_next _ _ _

theorem section_of_connects {R S : Race} {s : Nat} {target : Descriptor} {p : Progress}
    (h : Step R (.connects s target p) S) :
    ∃ n, R.network.Section s none p n ∧ S = R.put s (p, n) := by
  generalize he : Event.connects s target p = e at h
  cases h with
  | atOnce | drop | proceed => simp at he
  | connect _ h =>
    cases he
    exact ⟨_, Network.section_of_beginConnect h, rfl⟩

theorem section_of_proceeds {R S : Race} {s : Nat} {p : Progress} (h : Step R (.proceeds s p) S) :
    ∃ call n, R.calls s = some call ∧ R.network.Section s (some call) p n ∧
      S = R.put s (p, n) := by
  generalize he : Event.proceeds s p = e at h
  cases h with
  | atOnce | connect | drop => simp at he
  | proceed hc =>
    cases he
    exact ⟨_, _, hc, Network.section_of_next _ _ _, rfl⟩

/-! ### Calls that nothing comes in between -/

def Reaches (R S : Race) : Prop := ∃ tr, Run R tr S

theorem Reaches.trans {R S T : Race} (h : Reaches R S) (h' : Reaches S T) : Reaches R T := by
  obtain ⟨_, h⟩ := h
  obtain ⟨_, h'⟩ := h'
  exact ⟨_, h.trans h'⟩

theorem reaches_of_step {R S : Race} {e : Event} (h : Step R e S) : Reaches R S :=
  ⟨_, Run.nil.snoc h⟩

variable {n m n' : Network} {s : Nat}

theorem put_put (R : Race) (s : Nat) (x y : Progress × Network) :
    (R.put s x).put s y = R.put s y := by
  simp only [put, mk.injEq, true_and]
  funext t
  by_cases h : t = s <;> simp [h]

theorem put_idle (n m : Network) (s : Nat) {p : Progress} (h : p.rest? = none) :
    (idle n).put s (p, m) = idle m := by
  simp only [put, idle, mk.injEq, true_and]
  funext t
  by_cases ht : t = s <;> simp [ht, h]

/-- The next section of a call that is the only one under way. -/
theorem reaches_next (n m : Network) (s : Nat) (call : Call) :
    Reaches ((idle n).put s (.left call, m)) ((idle n).put s (call.next s m)) := by
  have hc : ((idle n).put s (.left call, m)).calls s = some call := put_calls_same _ _ _
  have hs := Step.proceed hc
  rw [put_put] at hs
  exact reaches_of_step hs

theorem reaches_connectFrom {bound : Option Descriptor} {target : Descriptor}
    {r : Except IoError Unit} (hb : n.beginConnect s target = n.lookUp bound target)
    (h : n.connectFrom s bound target = some (r, n')) : Reaches (idle n) (idle n') := by
  have hfirst {x : Progress × Network} (hx : n.lookUp bound target = some x) :
      Reaches (idle n) ((idle n).put s x) := reaches_of_step (.connect rfl (hb.trans hx))
  unfold Network.connectFrom at h
  split at h
  · simp at h
  · rename_i e m hr
    cases h
    have hrun := hfirst (by rw [Network.lookUp, hr])
    rwa [put_idle n n' s rfl] at hrun
  · rename_i q own m hr
    have hrun := hfirst (by rw [Network.lookUp, hr])
    have hrun := hrun.trans (reaches_next n m s (.joining bound own target q))
    cases he : m.enqueue q own target with
    | some x =>
      obtain ⟨c, k⟩ := x
      simp only [Call.next, he] at hrun h
      cases h
      rwa [put_idle n _ s rfl] at hrun
    | none =>
      simp only [Call.next, he] at hrun h
      cases h
      cases bound with
      | some own' => rwa [put_idle n m s rfl] at hrun
      | none =>
        have hrun := hrun.trans (reaches_next n m s (.refused own))
        rwa [Call.next, put_idle n _ s rfl] at hrun

/-- Ending one direction after the other ends both. -/
theorem shut_read_shut_write (c : Connection) (side : Side) :
    (c.shut side .write).shut side .read = c.shut side .both := by
  cases side <;> rfl

theorem reaches_drop (n : Network) (s : Nat) : Reaches (idle n) (idle (n.drop s)) := by
  have hfirst : Reaches (idle n) ((idle n).put s (n.beginDrop s)) := reaches_of_step (.drop rfl)
  cases hs : n.slot s with
  | fresh | bound own | closed =>
    rw [Network.beginDrop, hs] at hfirst
    rwa [put_idle n (n.drop s) s rfl] at hfirst
  | listening own q =>
    let m := (n.closeQueue q).setSlot s .closed
    have hd : n.drop s = m.release own.endpoint := by
      simp only [Network.drop, hs]
      rfl
    rw [Network.beginDrop, hs] at hfirst
    have hrun := hfirst.trans (reaches_next n m s (.leaving own (some q)))
    rwa [Call.next, put_idle n _ s rfl, ← hd] at hrun
  | connected own c side =>
    let m := (n.modifyConnection c (·.shut side .write)).setSlot s .closed
    let k := m.modifyConnection c (·.shut side .read)
    have hk : k = (n.modifyConnection c (·.shut side .both)).setSlot s .closed := by
      simp only [k, m, Network.modifyConnection, Network.setSlot, List.modify_modify_eq,
        Function.comp_def, shut_read_shut_write]
    rw [Network.beginDrop, hs] at hfirst
    have hrun := hfirst.trans (reaches_next n m s (.hanging own c side))
    cases side with
    | callee =>
      have hd : n.drop s = k := by
        simp only [Network.drop, hs, hk]
      rw [Call.next, Call.afterHanging, put_idle n _ s rfl] at hrun
      rw [hd]
      exact hrun
    | caller =>
      have hd : n.drop s = k.release own.endpoint := by
        simp only [Network.drop, hs, hk]
        rfl
      rw [Call.next, Call.afterHanging] at hrun
      have hrun := hrun.trans (reaches_next n k s (.leaving own none))
      rwa [Call.next, put_idle n _ s rfl, ← hd] at hrun

/-- A call that nothing comes in between does all that it does as a whole. -/
theorem reaches_of_whole {e : Network.Event} (h : n.Step e n') : Reaches (idle n) (idle n') := by
  by_cases he : e.atOnce = true
  · exact reaches_of_step (.atOnce he (fun _ _ => rfl) h)
  · cases h with
    | drop s => exact reaches_drop n s
    | call h =>
      rename_i α q r
      cases q with
      | connect s target =>
        simp only [Network.call, Network.connect] at h
        split at h
        · rename_i hs
          exact @reaches_connectFrom n n' s none target r (by simp [Network.beginConnect, hs]) h
        · rename_i own hs
          exact @reaches_connectFrom n n' s (some own) target r
            (by simp [Network.beginConnect, hs]) h
        · cases h
          exact ⟨[], .nil⟩
      | _ => simp [Network.Event.atOnce] at he

/-- A run of whole calls is a race in which nothing comes in between the sections of a call. -/
theorem reaches_of_run {tr : List Network.Moment} (h : n.Run tr n') :
    Reaches (idle n) (idle n') := by
  induction h with
  | nil => exact ⟨[], .nil⟩
  | snoc _ hs ih => exact ih.trans (reaches_of_whole hs)

end Race
end Handoff.Loopback
