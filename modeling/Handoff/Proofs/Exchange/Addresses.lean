import Handoff.Proofs.Exchange.Lifecycle

/-!
The addresses of handles over any transport. What a handle holds as its own address and as that of
its peer is told by the calls that were made for it, and which of them there are is told by its
stage. So a failure never carries a wildcard in place of an address. The main statement is
`addresses_of_run`.
-/
namespace Handoff

variable {σ κ : Type}

namespace Record

/-- The address that a call has bound its socket to. -/
def bound? : Record κ → Option Descriptor
  | bind _ a (.ok _) => some a
  | _ => none

/-- The address that a call has connected its socket to. -/
def reached? : Record κ → Option Descriptor
  | connect _ a (.ok _) => some a
  | _ => none

end Record

/-- Failed attempts do not show where only success does. -/
theorem Request.filterMap_records {α β : Type} {q : Request κ α} {f : Record κ → Option β}
    (hf : ∀ e, f (q.record (.error e)) = none) (es : List IoError) (r : Except IoError α) :
    (q.records es r).filterMap f = (f (q.record r)).toList := by
  have hnone : (es.map fun e => q.record (.error e)).filterMap f = [] := by
    refine List.filterMap_eq_nil_iff.mpr ?_
    intro x hx
    obtain ⟨e, -, rfl⟩ := List.mem_map.mp hx
    exact hf e
  rw [Request.records, List.filterMap_append, hnone, List.nil_append]
  cases hr : f (q.record r) with
  | none => exact List.filterMap_cons_none hr
  | some y => exact List.filterMap_cons_some hr

namespace Demand

/-- The address that a demand binds to when it is granted. -/
def binds? : Demand → Option Descriptor
  | bind a => some a
  | listen _ | accept | connect _ | send _ | recv _ | shutdown => none

/-- The address that a demand connects to when it is granted. -/
def reaches? : Demand → Option Descriptor
  | connect a => some a
  | bind _ | listen _ | accept | send _ | recv _ | shutdown => none

variable {d : Demand}

/-- A demand that is not granted neither binds nor connects. -/
theorem addresses_failed (s : κ) (es : List IoError) (e : IoError) :
    ((d.request s).records es (.error e)).filterMap Record.bound? = [] ∧
      ((d.request s).records es (.error e)).filterMap Record.reached? = [] := by
  constructor
  · cases d <;> exact Request.filterMap_records (fun _ => rfl) es _
  · cases d <;> exact Request.filterMap_records (fun _ => rfl) es _

theorem addresses_granted (s : κ) (es : List IoError) (a : d.Answer κ) :
    ((d.request s).records es (.ok a)).filterMap Record.bound? = d.binds?.toList ∧
      ((d.request s).records es (.ok a)).filterMap Record.reached? = d.reaches?.toList := by
  constructor
  · cases d <;> exact Request.filterMap_records (fun _ => rfl) es _
  · cases d <;> exact Request.filterMap_records (fun _ => rfl) es _

/-- A listener is asked to accept and for nothing else. -/
theorem eq_accept_of_listening (hd : d.operation.admittedIn .listening = true) : d = .accept := by
  cases d with
  | accept => rfl
  | bind | listen | connect | send | recv | shutdown => cases hd

end Demand

theorem Handle.moved_eq {h : Handle κ} {d : Demand} (hb : d.binds? = none)
    (hr : d.reaches? = none) : h.moved d = { h with stage := (h.moved d).stage } := by
  cases d with
  | bind => cases hb
  | connect => cases hr
  | recv => rw [moved, draining_eq]
  | listen | accept | send | shutdown => rfl

namespace Life

/-- The addresses that a handle was bound to. -/
def bindings (l : Life κ) : List Descriptor := l.calls.filterMap Record.bound?

/-- The addresses that a handle was connected to. -/
def connections (l : Life κ) : List Descriptor := l.calls.filterMap Record.reached?

/-- The last stage before a shutdown, or the stage now if there was none. -/
def opened? (l : Life κ) : Option Stage := (l.stages.filter (· ≠ .shutdown)).getLast?

/-- The handle was accepted from a peer, through a listener that is bound to an address. -/
def AcceptedBy (ls : List (Life κ)) (l : Life κ) (a p : Descriptor) : Prop :=
  ∃ i k, l.parent = some i ∧ ls[i]? = some k ∧ k.handle.stage = .listening ∧ k.bindings = [a] ∧
    l.birth = [.accept k.handle.socket (.ok (l.handle.socket, p))]

/-- The addresses of a handle are what a stage tells of them. -/
def Fits (ls : List (Life κ)) (l : Life κ) : Stage → Prop
  | .created => l.bindings = [] ∧ l.connections = [] ∧ l.handle.own = none ∧ l.handle.peer = none
  | .bound | .listening => ∃ a, l.bindings = [a] ∧ l.handle.own = some a ∧ l.handle.peer = none
  | .connected => ∃ p, l.connections = [p] ∧ l.handle.own = none ∧ l.handle.peer = some p
  | .accepted | .draining =>
    ∃ a p, l.AcceptedBy ls a p ∧ l.handle.own = some a ∧ l.handle.peer = some p
  | .shutdown => False

/-- The addresses of a handle are what its stage tells of them, or the stage that it was in before
it was shut down. -/
def Addressed (ls : List (Life κ)) (l : Life κ) : Prop :=
  ∃ g, l.opened? = some g ∧ l.Fits ls g ∧
    (l.handle.stage = g ∨ l.handle.stage = .shutdown ∧ g.isConnection = true)

variable {ls ls' : List (Life κ)} {l l' : Life κ} {g g' : Stage} {h : Handle κ}
  {calls : List (Record κ)} {i : Nat} {born : List (Life κ)}

theorem bindings_after (l : Life κ) (h : Handle κ) (calls : List (Record κ)) :
    (l.after h calls).bindings = l.bindings ++ calls.filterMap Record.bound? :=
  List.filterMap_append

theorem connections_after (l : Life κ) (h : Handle κ) (calls : List (Record κ)) :
    (l.after h calls).connections = l.connections ++ calls.filterMap Record.reached? :=
  List.filterMap_append

theorem opened?_after_of_shutdown (hg : h.stage = .shutdown) :
    (l.after h calls).opened? = l.opened? := by
  simp [opened?, after, List.filter_append, hg]

theorem opened?_after (hg : h.stage ≠ .shutdown) : (l.after h calls).opened? = some h.stage := by
  simp [opened?, after, List.filter_append, hg]

/-! ### Listeners -/

/-- Lives that go on so that what listens keeps its place, its socket and its address. -/
def KeepsListeners (ls ls' : List (Life κ)) : Prop :=
  ∀ (i : Nat) (k : Life κ), ls[i]? = some k → k.handle.stage = .listening →
    ∃ k' : Life κ, ls'[i]? = some k' ∧ k'.handle.stage = .listening ∧ k'.bindings = k.bindings ∧
      k'.handle.socket = k.handle.socket

theorem Fits.frame (hf : l.Fits ls g) (hk : KeepsListeners ls ls') : l.Fits ls' g := by
  cases g with
  | accepted | draining =>
    obtain ⟨a, p, ⟨i, k, hparent, hi, hg, hb, hbirth⟩, hown, hpeer⟩ := hf
    obtain ⟨k', hi', hg', hb', hs'⟩ := hk i k hi hg
    rw [← hs'] at hbirth
    exact ⟨a, p, ⟨i, k', hparent, hi', hg', hb'.trans hb, hbirth⟩, hown, hpeer⟩
  | created | bound | listening | connected | shutdown => exact hf

theorem Addressed.frame (hl : l.Addressed ls) (hk : KeepsListeners ls ls') : l.Addressed ls' := by
  obtain ⟨g, hopened, hfits, hg⟩ := hl
  exact ⟨g, hopened, hfits.frame hk, hg⟩

/-- A listener goes on listening. -/
theorem Turn.listens (ht : Turn i l l' born) (hg : l.handle.stage = .listening) :
    l'.handle.stage = .listening ∧ l'.bindings = l.bindings ∧
      l'.handle.socket = l.handle.socket := by
  cases ht with
  | denied => exact ⟨hg, by rw [bindings_after]; exact List.append_nil _, rfl⟩
  | failed hd es e =>
    obtain rfl := Demand.eq_accept_of_listening (hg ▸ hd)
    refine ⟨hg, ?_, rfl⟩
    rw [bindings_after, (Demand.addresses_failed _ _ _).1, List.append_nil]
  | granted hd hes =>
    obtain rfl := Demand.eq_accept_of_listening (hg ▸ hd)
    refine ⟨hg, ?_, rfl⟩
    rw [bindings_after, (Demand.addresses_granted _ _ _).1]
    exact List.append_nil _
  | located r => exact ⟨hg, by rw [bindings_after]; exact List.append_nil _, rfl⟩
  | dropped => exact ⟨hg, rfl, rfl⟩

/-! ### Turns -/

/-- Calls that neither bind nor connect leave the addresses as they are told. -/
theorem Fits.after (hf : l.Fits ls g) (hb : calls.filterMap Record.bound? = [])
    (hr : calls.filterMap Record.reached? = []) (s : Stage) :
    (l.after { l.handle with stage := s } calls).Fits ls g := by
  have hbind := bindings_after l { l.handle with stage := s } calls
  have hconn := connections_after l { l.handle with stage := s } calls
  rw [hb, List.append_nil] at hbind
  rw [hr, List.append_nil] at hconn
  cases g with
  | created => exact ⟨hbind.trans hf.1, hconn.trans hf.2.1, hf.2.2⟩
  | bound | listening =>
    obtain ⟨a, ha, h⟩ := hf
    exact ⟨a, hbind.trans ha, h⟩
  | connected =>
    obtain ⟨p, hp, h⟩ := hf
    exact ⟨p, hconn.trans hp, h⟩
  | accepted | draining | shutdown => exact hf

/-- A handle that has not been shut down fits its stage. -/
theorem Addressed.fits (hl : l.Addressed ls) (hg : l.handle.stage = g) (hopen : g ≠ .shutdown) :
    l.Fits ls g := by
  subst hg
  obtain ⟨g, -, hfits, hstage⟩ := hl
  rcases hstage with rfl | ⟨hshut, -⟩
  · exact hfits
  · exact absurd hshut hopen

/-- A handle that stays in its stage keeps its addresses. -/
theorem Addressed.stay (hl : l.Addressed ls) (hb : calls.filterMap Record.bound? = [])
    (hr : calls.filterMap Record.reached? = []) : (l.after l.handle calls).Addressed ls := by
  obtain ⟨g, hopened, hfits, hstage⟩ := hl
  have hfits' := hfits.after hb hr l.handle.stage
  rcases hstage with hstage | ⟨hshut, hconn⟩
  · refine ⟨g, ?_, hfits', .inl hstage⟩
    have hg : l.handle.stage ≠ .shutdown := by
      rintro hshut
      rw [← hstage, hshut] at hfits
      exact hfits
    rw [opened?_after hg, hstage]
  · exact ⟨g, (opened?_after_of_shutdown hshut).trans hopened, hfits', .inr ⟨hshut, hconn⟩⟩

/-- A handle that neither binds nor connects keeps its addresses along an edge. -/
theorem Addressed.move {op : Operation} (hl : l.Addressed ls)
    (hb : calls.filterMap Record.bound? = []) (hr : calls.filterMap Record.reached? = [])
    (he : Stage.Edge op l.handle.stage g) (hbind : op ≠ .bind) (hconn : op ≠ .connect) :
    (l.after { l.handle with stage := g } calls).Addressed ls := by
  -- an edge leads on from here, so there has been no shutdown
  have hopen : l.handle.stage ≠ .shutdown := fun h => Stage.final_shutdown op g (h ▸ he)
  have hfits := (hl.fits rfl hopen).after hb hr g
  generalize hs : l.handle.stage = s at he hfits hopen
  cases he with
  | bind => exact absurd rfl hbind
  | connect => exact absurd rfl hconn
  | listen => exact ⟨.listening, opened?_after (by simp), hfits, .inl rfl⟩
  | recv => exact ⟨.draining, opened?_after (by simp), hfits, .inl rfl⟩
  | shutdown hg =>
    obtain ⟨g, hopened, -, hstage⟩ := hl
    rw [hs] at hstage
    rcases hstage with rfl | ⟨hshut, -⟩
    · exact ⟨s, (opened?_after_of_shutdown rfl).trans hopened, hfits,
        .inr ⟨rfl, Stage.mem_connections.mp hg⟩⟩
    · exact absurd hshut hopen

/-- What is granted without binding or connecting keeps the addresses. -/
theorem Addressed.grant {d : Demand} (hl : l.Addressed ls)
    (hd : d.operation.admittedIn l.handle.stage = true) (es : List IoError) (a : d.Answer κ)
    (hb : d.binds? = none) (hr : d.reaches? = none) :
    (l.after (l.handle.moved d) ((d.request l.handle.socket).records es (.ok a))).Addressed ls := by
  obtain ⟨hbind, hconn⟩ := Demand.addresses_granted l.handle.socket es a
  rw [hb] at hbind
  rw [hr] at hconn
  rw [Handle.moved_eq hb hr]
  rcases Handle.edge_moved hd with he | ⟨hsame, -⟩
  · refine hl.move hbind hconn he ?_ ?_
    · intro hop
      cases d with
      | bind => cases hb
      | listen | accept | connect | send | recv | shutdown => cases hop
    · intro hop
      cases d with
      | connect => cases hr
      | bind | listen | accept | send | recv | shutdown => cases hop
  · rw [hsame]
    exact hl.stay hbind hconn

theorem Addressed.turn (hl : l.Addressed ls) (ht : Turn i l l' born) : l'.Addressed ls := by
  cases ht with
  | denied => exact hl.stay rfl rfl
  | @failed d hd es e =>
    obtain ⟨hb, hr⟩ := Demand.addresses_failed (d := d) l.handle.socket es e
    rw [Handle.kept_eq]
    split
    · rename_i hg
      have he : Stage.Edge .recv l.handle.stage .draining := by
        rw [hg.2]
        exact .recv
      exact hl.move hb hr he (by simp) (by simp)
    · exact hl.stay hb hr
  | @granted d hd es a hes =>
    cases d with
    | bind x =>
      have hg : l.handle.stage = .created := Operation.admittedIn_bind.mp hd
      obtain ⟨hb, -, -, hpeer⟩ := hl.fits hg (by simp)
      refine ⟨.bound, opened?_after (by simp [Handle.moved]), ⟨x, ?_, rfl, hpeer⟩, .inl rfl⟩
      rw [bindings_after, (Demand.addresses_granted _ _ _).1, hb]
      rfl
    | connect x =>
      have hg : l.handle.stage = .created := Operation.admittedIn_connect.mp hd
      obtain ⟨-, hr, hown, -⟩ := hl.fits hg (by simp)
      refine ⟨.connected, opened?_after (by simp [Handle.moved]), ⟨x, ?_, hown, rfl⟩, .inl rfl⟩
      rw [connections_after, (Demand.addresses_granted _ _ _).2, hr]
      rfl
    | listen | accept | send | recv | shutdown => exact hl.grant hd es a rfl rfl
  | located r => exact hl.stay rfl rfl
  | dropped => exact hl

/-- What a listener has accepted has the address of the listener, and the peer that the accept has
told. -/
theorem Addressed.accepted (hl : l.Addressed ls) (ht : Turn i l l' born) (hi : ls'[i]? = some l') :
    ∀ b ∈ born, b.Addressed ls' := by
  intro b hb
  cases ht with
  | denied | failed | located | dropped => cases hb
  | @granted d hd es a hes =>
    cases d with
    | bind | listen | connect | send | recv | shutdown => cases hb
    | accept =>
      have hg : l.handle.stage = .listening := Operation.admittedIn_accept.mp hd
      obtain ⟨hg', hb', -⟩ := (Turn.granted (i := i) hd hes).listens hg
      obtain ⟨x, hbind, hown, -⟩ := hl.fits hg (by simp)
      obtain ⟨s, p⟩ := a
      obtain rfl := List.mem_singleton.mp hb
      obtain rfl : es = [] := hes
      have hby : AcceptedBy ls' (new (some i) [.accept l.handle.socket (.ok (s, p))]
          ⟨s, .accepted, l.handle.own, some p⟩) x p :=
        ⟨i, _, rfl, hi, hg', hb'.trans hbind, rfl⟩
      exact ⟨.accepted, rfl, ⟨x, p, hby, hown, rfl⟩, .inl rfl⟩

/-! ### Failures -/

/-- Where a failure to listen or to accept names an address it is the one that the handle was bound
to, and where a failure to send, to receive or to shut down names one it is that of the peer. -/
structure Names (ls : List (Life κ)) (l : Life κ) (f : Failure) : Prop where
  own : f.step = .listen ∨ f.step = .accept →
    ∃ a, l.bindings = [a] ∧ l.handle.own = some a ∧ f.address? = some a
  peer : f.step = .send ∨ f.step = .recv ∨ f.step = .shutdown →
    ∃ p, (l.connections = [p] ∨ ∃ a, l.AcceptedBy ls a p) ∧ l.handle.peer = some p ∧
      f.address? = some p

theorem Addressed.ownOrAny (hl : l.Addressed ls)
    (hg : l.handle.stage = .bound ∨ l.handle.stage = .listening) :
    ∃ a, l.bindings = [a] ∧ l.handle.own = some a ∧ l.handle.ownOrAny = a := by
  have hbound : l.Fits ls .bound := by
    rcases hg with hg | hg
    · exact hl.fits hg (by simp)
    · have hlistens : l.Fits ls .listening := hl.fits hg (by simp)
      exact hlistens
  obtain ⟨a, hb, hown, -⟩ := hbound
  exact ⟨a, hb, hown, by rw [Handle.ownOrAny, hown]; rfl⟩

theorem Addressed.peerOrAny (hl : l.Addressed ls) (hg : l.handle.stage.isConnection = true) :
    ∃ p, (l.connections = [p] ∨ ∃ a, l.AcceptedBy ls a p) ∧ l.handle.peer = some p ∧
      l.handle.peerOrAny = p := by
  cases hs : l.handle.stage with
  | created | bound | listening | shutdown =>
    rw [hs] at hg
    cases hg
  | accepted | draining =>
    obtain ⟨a, p, hby, -, hpeer⟩ := hl.fits hs (by simp)
    exact ⟨p, .inr ⟨a, hby⟩, hpeer, by rw [Handle.peerOrAny, hpeer]; rfl⟩
  | connected =>
    obtain ⟨p, hconn, -, hpeer⟩ := hl.fits hs (by simp)
    exact ⟨p, .inl hconn, hpeer, by rw [Handle.peerOrAny, hpeer]; rfl⟩

theorem Addressed.names_blame {d : Demand} (hl : l.Addressed ls)
    (hd : d.operation.admittedIn l.handle.stage = true) (e : IoError) :
    l.Names ls (l.handle.blame e d) := by
  cases d with
  | bind | connect =>
    exact ⟨by simp [Handle.blame, Failure.step], by simp [Handle.blame, Failure.step]⟩
  | listen backlog =>
    obtain ⟨a, hb, hown, hany⟩ := hl.ownOrAny (.inl (Operation.admittedIn_listen.mp hd))
    exact ⟨fun _ => ⟨a, hb, hown, congrArg some hany⟩, by simp [Handle.blame, Failure.step]⟩
  | accept =>
    obtain ⟨a, hb, hown, hany⟩ := hl.ownOrAny (.inr (Operation.admittedIn_accept.mp hd))
    exact ⟨fun _ => ⟨a, hb, hown, congrArg some hany⟩, by simp [Handle.blame, Failure.step]⟩
  | send | recv | shutdown =>
    obtain ⟨p, hmet, hpeer, hany⟩ := hl.peerOrAny (Stage.isConnection_of_admitted hd rfl)
    exact ⟨by simp [Handle.blame, Failure.step], fun _ => ⟨p, hmet, hpeer, congrArg some hany⟩⟩

end Life

namespace Chronicle

variable {T : Transport σ κ} {c : Chronicle σ κ} {ls ls' : List (Life κ)} {l : Life κ}

theorem keepsListeners_of_grows (h : Grows ls ls') : Life.KeepsListeners ls ls' := by
  intro i k hi hk
  have hlt := (List.getElem?_eq_some_iff.mp hi).1
  cases h with
  | same => exact ⟨k, hi, hk, rfl, rfl⟩
  | made s => exact ⟨k, (List.getElem?_append_left hlt).trans hi, hk, rfl, rfl⟩
  | @turned j l l' born hl ht =>
    rw [List.getElem?_append_left (by rwa [List.length_set])]
    by_cases hj : j = i
    · subst hj
      obtain rfl := Option.some.inj (hl.symm.trans hi)
      exact ⟨l', List.getElem?_set_self hlt, ht.listens hk⟩
    · exact ⟨k, (List.getElem?_set_ne hj).trans hi, hk, rfl, rfl⟩

theorem addressed_of_grows (h : Grows ls ls') (hls : ∀ l ∈ ls, l.Addressed ls) :
    ∀ l ∈ ls', l.Addressed ls' := by
  have hk := keepsListeners_of_grows h
  cases h with
  | same => exact hls
  | made s =>
    intro l hl
    rcases List.mem_append.mp hl with hl | hl
    · exact (hls l hl).frame hk
    · obtain rfl := List.mem_singleton.mp hl
      exact ⟨.created, rfl, ⟨rfl, rfl, rfl, rfl⟩, .inl rfl⟩
  | @turned i l₀ l' born hl₀ ht =>
    have hold := hls l₀ (List.mem_of_getElem? hl₀)
    have hlt := (List.getElem?_eq_some_iff.mp hl₀).1
    have hi : (ls.set i l' ++ born)[i]? = some l' := by
      rw [List.getElem?_append_left (by rwa [List.length_set]), List.getElem?_set_self hlt]
    intro l hl
    rcases List.mem_append.mp hl with hl | hl
    · rcases List.mem_or_eq_of_mem_set hl with hl | rfl
      · exact (hls l hl).frame hk
      · exact (hold.turn ht).frame hk
    · exact hold.accepted ht hi l hl

theorem addressed_of_run (h : Run T c) : ∀ l ∈ c.lives, l.Addressed c.lives := by
  induction h with
  | start w => simp
  | snoc _ hs ih => exact addressed_of_grows (grows_of_step hs) ih

/-- Over every transport the addresses of a handle are what its stage tells of them, and they are
the ones that failures name. -/
theorem addresses_of_run (hrun : Run T c) (hl : l ∈ c.lives) :
    (∃ g, l.opened? = some g ∧ l.Fits c.lives g ∧
      (l.handle.stage = g ∨ l.handle.stage = .shutdown ∧ g.isConnection = true)) ∧
    ∀ d w f hs w', l.handle.ask T d w = some (.error f, hs, w') → l.Names c.lives f := by
  have haddr := addressed_of_run hrun l hl
  refine ⟨haddr, ?_⟩
  intro d w f hs w' ha
  cases hd : d.operation.admittedIn l.handle.stage with
  | false =>
    rw [Handle.ask_of_not_admitted hd] at ha
    cases ha
    exact ⟨by simp [Handle.illegal, Failure.step], by simp [Handle.illegal, Failure.step]⟩
  | true =>
    rw [Handle.ask_of_admitted hd] at ha
    obtain ⟨⟨a, w₁⟩, -, hsettle⟩ := Option.map_eq_some_iff.mp ha
    cases a with
    | ok a => cases hsettle
    | error e =>
      cases hsettle
      exact haddr.names_blame hd e

/-- A connection that was accepted and whose shutdown fails: the failure names the peer. -/
theorem addresses_of_accepting_run :
    let script : Script.CallKind → List Script.Entry := fun
      | .accept => [.address (Descriptor.peer 7 5000)]
      | .shutdown => [.fail (.plain .notConnected)]
      | _ => []
    ∃ c l, Run Script.transport c ∧ c.lives[1]? = some l ∧ l.handle.stage = .accepted ∧
      (∃ a, l.AcceptedBy c.lives a (Descriptor.peer 7 5000)) ∧
      ∃ f hs t, l.handle.ask Script.transport .shutdown (.ofEntries script) =
        some (.error f, hs, t) ∧ f.address? = some (Descriptor.peer 7 5000) := by
  intro script
  have h := (Run.start (Script.Tape.ofEntries script) : Run Script.transport _)
    |>.snoc (.create rfl)
    |>.snoc (.ask 0 (.bind (Descriptor.bind 3 1234)) rfl rfl rfl)
    |>.snoc (.ask 0 (.listen 1) rfl rfl rfl)
    |>.snoc (.ask 0 .accept rfl rfl rfl)
  obtain ⟨-, hnames⟩ := addresses_of_run h (List.mem_cons_of_mem _ List.mem_cons_self)
  obtain ⟨p, hmet, hpeer, haddress⟩ :=
    (hnames .shutdown (.ofEntries script) _ _ _ rfl).peer (.inr (.inr rfl))
  cases hpeer
  rcases hmet with hconn | hby
  · cases hconn
  · exact ⟨_, _, h, rfl, rfl, hby, _, _, _, rfl, haddress⟩

end Chronicle
end Handoff
