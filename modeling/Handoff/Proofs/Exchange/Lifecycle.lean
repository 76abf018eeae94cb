import Mathlib.Data.List.Chain
import Handoff.Proofs.Exchange.Asking
import Handoff.Script

/-!
The lives of handles over any transport: the stages that each has been in and the calls that it has
made of its socket. Nothing is assumed of the transport, and its world may change at any time. The
main statement is `lifecycle_of_run`.
-/
namespace Handoff

/-! ### The diagram of stages -/

namespace Operation

/-- Whether an operation uses a connection. -/
def onConnection : Operation → Bool
  | send | recv | shutdown => true
  | bind | listen | accept | connect => false

variable {g : Stage}

theorem admittedIn_bind : bind.admittedIn g = true ↔ g = .created := beq_iff_eq

theorem admittedIn_listen : listen.admittedIn g = true ↔ g = .bound := beq_iff_eq

theorem admittedIn_accept : accept.admittedIn g = true ↔ g = .listening := beq_iff_eq

theorem admittedIn_connect : connect.admittedIn g = true ↔ g = .created := beq_iff_eq

theorem admittedIn_send : send.admittedIn g = true ↔ g = .connected := beq_iff_eq

end Operation

namespace Stage

/-- The stages with an open connection. -/
def connections : List Stage := [.accepted, .draining, .connected]

theorem mem_connections {g : Stage} : g ∈ connections ↔ g.isConnection = true := by
  cases g <;> decide

/-- The operations that each stage admits. -/
inductive Admits : Stage → Operation → Prop where
  | bind : Admits .created .bind
  | listen : Admits .bound .listen
  | accept : Admits .listening .accept
  | connect : Admits .created .connect
  | send : Admits .connected .send
  | recv {g : Stage} (hg : g ∈ connections) : Admits g .recv
  | shutdown {g : Stage} (hg : g ∈ connections) : Admits g .shutdown

/-- What a handle looks at is what the stage admits. -/
theorem admits_iff {g : Stage} {op : Operation} : g.Admits op ↔ op.admittedIn g = true := by
  constructor
  · intro h
    cases h with
    | bind | listen | accept | connect | send => rfl
    | recv hg | shutdown hg => exact mem_connections.mp hg
  · intro h
    cases op with
    | bind => exact Operation.admittedIn_bind.mp h ▸ .bind
    | listen => exact Operation.admittedIn_listen.mp h ▸ .listen
    | accept => exact Operation.admittedIn_accept.mp h ▸ .accept
    | connect => exact Operation.admittedIn_connect.mp h ▸ .connect
    | send => exact Operation.admittedIn_send.mp h ▸ .send
    | recv => exact .recv (mem_connections.mpr h)
    | shutdown => exact .shutdown (mem_connections.mpr h)

/-- The edges of the diagram, each with the operation that follows it. -/
inductive Edge : Operation → Stage → Stage → Prop where
  | bind : Edge .bind .created .bound
  | listen : Edge .listen .bound .listening
  | connect : Edge .connect .created .connected
  | recv : Edge .recv .accepted .draining
  | shutdown {g : Stage} (hg : g ∈ connections) : Edge .shutdown g .shutdown

/-- The stage is the same afterwards, or an edge on. -/
def Follows (g g' : Stage) : Prop := g' = g ∨ ∃ op, Edge op g g'

/-- Whether the socket carries a connection or has carried one. -/
def hasConnected (g : Stage) : Bool := g.isConnection || g == .shutdown

/-- Whether no edge leads away from a stage. -/
def Final (g : Stage) : Prop := ∀ op g', ¬Edge op g g'

theorem final_listening : Final .listening := by
  rintro op g' he
  cases he with
  | shutdown hg => exact absurd hg (by decide)

theorem final_shutdown : Final .shutdown := by
  rintro op g' he
  cases he with
  | shutdown hg => exact absurd hg (by decide)

variable {g g' : Stage}

/-- What uses a connection is admitted only where there is one. -/
theorem isConnection_of_admitted {op : Operation} (h : op.admittedIn g = true)
    (hop : op.onConnection = true) : g.isConnection = true := by
  cases op with
  | bind | listen | accept | connect => cases hop
  | send =>
    rw [Operation.admittedIn_send.mp h]
    rfl
  | recv | shutdown => exact h

theorem Follows.eq_of_final (h : g.Follows g') (hg : g.Final) : g' = g := by
  rcases h with h | ⟨op, he⟩
  · exact h
  · exact absurd he (hg op g')

theorem Follows.hasConnected (h : g.Follows g') (hg : g.hasConnected = true) :
    g'.hasConnected = true := by
  rcases h with rfl | ⟨op, he⟩
  · exact hg
  · cases he with
    | bind | listen | connect => cases hg
    | recv | shutdown => rfl

theorem eq_of_isChain (hg : g.Final) {gs : List Stage} (h : (g :: gs).IsChain Follows) :
    ∀ g' ∈ gs, g' = g := by
  induction gs with
  | nil => simp
  | cons a gs ih =>
    obtain ⟨ha, hrest⟩ := List.isChain_cons_cons.mp h
    obtain rfl := ha.eq_of_final hg
    simpa using ih hrest

end Stage

/-! ### Records -/

namespace Record

variable {κ : Type}

def subject? : Record κ → Option κ
  | socket _ => none
  | bind s .. | listen s .. | accept s _ | connect s .. | send s .. | recv s .. | shutdown s ..
  | localAddr s _ => some s

/-- Whether a call was a send, a receive or a shutdown. -/
def onConnection : Record κ → Bool
  | send .. | recv .. | shutdown .. => true
  | socket _ | bind .. | listen .. | accept .. | connect .. | localAddr .. => false

def hangsUp : Record κ → Bool
  | shutdown _ _ (.ok _) => true
  | _ => false

end Record

variable {σ κ : Type}

/-- Every record of a request that is made again is one of that request. -/
theorem Request.exists_of_mem_records {α : Type} {q : Request κ α} {es : List IoError}
    {r : Except IoError α} {x : Record κ} (hx : x ∈ q.records es r) : ∃ r', x = q.record r' := by
  rcases List.mem_append.mp hx with hx | hx
  · obtain ⟨e, -, rfl⟩ := List.mem_map.mp hx
    exact ⟨.error e, rfl⟩
  · exact ⟨r, List.mem_singleton.mp hx⟩

namespace Demand

variable {d : Demand} {s : κ} {es : List IoError} {a : Except IoError (d.Answer κ)} {x : Record κ}

theorem subject?_of_mem (hx : x ∈ (d.request s).records es a) : x.subject? = some s := by
  obtain ⟨r, rfl⟩ := Request.exists_of_mem_records hx
  cases d <;> rfl

theorem onConnection_of_mem (hx : x ∈ (d.request s).records es a) :
    x.onConnection = d.operation.onConnection := by
  obtain ⟨r, rfl⟩ := Request.exists_of_mem_records hx
  cases d <;> rfl

theorem hangsUp_error (s : κ) (e : IoError) :
    ((d.request s).record (.error e)).hangsUp = false := by
  cases d <;> rfl

theorem of_hangsUp (hx : x ∈ (d.request s).records es a) (hh : x.hangsUp = true) :
    d = .shutdown ∧ ∃ b, a = .ok b := by
  rcases List.mem_append.mp hx with hx | hx
  · obtain ⟨e, -, rfl⟩ := List.mem_map.mp hx
    rw [hangsUp_error] at hh
    cases hh
  · obtain rfl := List.mem_singleton.mp hx
    cases a with
    | error e =>
      rw [hangsUp_error] at hh
      cases hh
    | ok b =>
      cases d with
      | shutdown => exact ⟨rfl, b, rfl⟩
      | bind | listen | accept | connect | send | recv => cases hh

/-- A call that hangs up is the last one. -/
theorem pairwise_records (s : κ) (es : List IoError) (a : Except IoError (d.Answer κ)) :
    ((d.request s).records es a).Pairwise fun x y => x.hangsUp = true → y.onConnection = false := by
  refine List.pairwise_append.mpr ⟨?_, List.pairwise_singleton _ _, ?_⟩
  · refine List.pairwise_map.mpr (List.pairwise_of_forall ?_)
    intro e e' hh
    rw [hangsUp_error] at hh
    cases hh
  · intro x hx y _ hh
    obtain ⟨e, -, rfl⟩ := List.mem_map.mp hx
    rw [hangsUp_error] at hh
    cases hh

end Demand

namespace Handle

variable {h : Handle κ} {d : Demand}

theorem draining_eq (h : Handle κ) :
    h.draining = { h with stage := if h.stage = .accepted then .draining else h.stage } := by
  unfold draining
  split <;> rfl

@[simp] theorem socket_kept (h : Handle κ) (d : Demand) : (h.kept d).socket = h.socket := by
  cases d <;> simp [kept, draining_eq]

@[simp] theorem socket_moved (h : Handle κ) (d : Demand) : (h.moved d).socket = h.socket := by
  cases d <;> simp [moved, draining_eq]

/-- Only an accept brings a handle, which it has accepted. -/
theorem stage_of_mem_taken {a : d.Answer κ} {k : Handle κ} (hk : k ∈ h.taken d a) :
    k.stage = .accepted := by
  cases d with
  | accept => rw [List.mem_singleton.mp hk]
  | bind | listen | connect | send | recv | shutdown => cases hk

/-- A demand that is not granted leaves the handle as it is, but that a receive takes an accepted
one to draining. -/
theorem kept_eq (h : Handle κ) (d : Demand) :
    h.kept d = { h with stage :=
      if d.operation = .recv ∧ h.stage = .accepted then .draining else h.stage } := by
  cases d <;> simp [kept, Demand.operation, draining_eq]

/-- A demand that is granted takes the handle along the edge of its operation, if there is one. -/
theorem edge_moved (hd : d.operation.admittedIn h.stage = true) :
    Stage.Edge d.operation h.stage (h.moved d).stage ∨
      (h.moved d).stage = h.stage ∧ ∀ g, ¬Stage.Edge d.operation h.stage g := by
  cases d with
  | bind a =>
    rw [Operation.admittedIn_bind.mp hd]
    exact .inl .bind
  | listen backlog =>
    rw [Operation.admittedIn_listen.mp hd]
    exact .inl .listen
  | connect a =>
    rw [Operation.admittedIn_connect.mp hd]
    exact .inl .connect
  | shutdown => exact .inl (.shutdown (Stage.mem_connections.mpr hd))
  | accept =>
    refine .inr ⟨rfl, ?_⟩
    rintro g ⟨⟩
  | send data =>
    refine .inr ⟨rfl, ?_⟩
    rintro g ⟨⟩
  | recv room =>
    rw [moved, draining_eq]
    by_cases hg : h.stage = .accepted
    · rw [if_pos hg, hg]
      exact .inl .recv
    · rw [if_neg hg]
      refine .inr ⟨rfl, ?_⟩
      intro g he
      generalize h.stage = g' at he hg
      cases he
      exact hg rfl

theorem follows_moved (hd : d.operation.admittedIn h.stage = true) :
    h.stage.Follows (h.moved d).stage := by
  rcases edge_moved hd with he | ⟨he, -⟩
  · exact .inr ⟨_, he⟩
  · exact .inl he

theorem follows_kept (h : Handle κ) (d : Demand) : h.stage.Follows (h.kept d).stage := by
  rw [kept_eq]
  split
  · rename_i hr
    rw [hr.2]
    exact .inr ⟨_, .recv⟩
  · exact .inl rfl

end Handle

/-! ### Lives -/

/-- The life of a handle so far. -/
structure Life (κ : Type) where
  handle : Handle κ
  /-- The number of the handle that accepted this one, or `none` if it was created. -/
  parent : Option Nat
  /-- The calls of the operation that the handle comes from. -/
  birth : List (Record κ)
  /-- The calls made through the handle. -/
  calls : List (Record κ)
  /-- The stages at the beginning and after each operation. -/
  stages : List Stage
  /-- Whether the handle has not been given up. -/
  held : Bool

namespace Life

def new (parent : Option Nat) (birth : List (Record κ)) (h : Handle κ) : Life κ :=
  ⟨h, parent, birth, [], [h.stage], true⟩

/-- A life after one more operation, with the handle that it leaves and the calls that it has
taken. -/
def after (l : Life κ) (h : Handle κ) (calls : List (Record κ)) : Life κ :=
  { l with handle := h, calls := l.calls ++ calls, stages := l.stages ++ [h.stage] }

end Life

/-- All handles that there have been, and the world that the transport answers from. -/
structure Chronicle (σ κ : Type) where
  world : σ
  lives : List (Life κ)

namespace Chronicle

/-- What can happen: a handle is made, or is not; one that is held is asked for something or for its
address, or is given up; and the world changes by itself. -/
inductive Step (T : Transport σ κ) (c : Chronicle σ κ) : Chronicle σ κ → Prop where
  | create {h : Handle κ} {w : σ} {calls : List (Record κ)}
      (hc : Handle.create T.recorded (c.world, []) = some (.ok h, w, calls)) :
      Step T c ⟨w, c.lives ++ [.new none calls h]⟩
  | fail {f : Failure} {w : σ} {calls : List (Record κ)}
      (hc : Handle.create T.recorded (c.world, []) = some (.error f, w, calls)) :
      Step T c ⟨w, c.lives⟩
  | ask (i : Nat) {l : Life κ} (d : Demand) {r : Except Failure Unit} {h : Handle κ}
      {hs : List (Handle κ)} {w : σ} {calls : List (Record κ)}
      (hl : c.lives[i]? = some l) (hheld : l.held = true)
      (ha : l.handle.ask T.recorded d (c.world, []) = some (r, h :: hs, w, calls)) :
      Step T c ⟨w, c.lives.set i (l.after h calls) ++ hs.map (.new (some i) calls)⟩
  | localAddr (i : Nat) {l : Life κ} {a : Option Descriptor} {w : σ} {calls : List (Record κ)}
      (hl : c.lives[i]? = some l) (hheld : l.held = true)
      (ha : l.handle.localAddr T.recorded (c.world, []) = some (a, w, calls)) :
      Step T c ⟨w, c.lives.set i (l.after l.handle calls)⟩
  | drop (i : Nat) {l : Life κ} (hl : c.lives[i]? = some l) (hheld : l.held = true) :
      Step T c ⟨T.release l.handle.socket c.world, c.lives.set i { l with held := false }⟩
  | elsewhere (w : σ) : Step T c ⟨w, c.lives⟩

/-- What handles can come to over a transport. -/
inductive Run (T : Transport σ κ) : Chronicle σ κ → Prop where
  | start (w : σ) : Run T ⟨w, []⟩
  | snoc {c c' : Chronicle σ κ} (h : Run T c) (hs : Step T c c') : Run T c'

end Chronicle

namespace Life

/-- One step of the life of the `i`-th handle, with the lives that come from it. -/
inductive Turn (i : Nat) (l : Life κ) : Life κ → List (Life κ) → Prop where
  | denied : Turn i l (l.after l.handle []) []
  | failed {d : Demand} (hd : d.operation.admittedIn l.handle.stage = true) (es : List IoError)
      (e : IoError) :
      Turn i l (l.after (l.handle.kept d) ((d.request l.handle.socket).records es (.error e))) []
  | granted {d : Demand} (hd : d.operation.admittedIn l.handle.stage = true) {es : List IoError}
      {a : d.Answer κ} (hes : Transport.Passes d es (.ok a)) :
      Turn i l (l.after (l.handle.moved d) ((d.request l.handle.socket).records es (.ok a)))
        ((l.handle.taken d a).map (new (some i) ((d.request l.handle.socket).records es (.ok a))))
  | located (r : Except IoError Descriptor) :
      Turn i l (l.after l.handle [.localAddr l.handle.socket r]) []
  | dropped : Turn i l { l with held := false } []

/-- What a demand does is a turn of the handle. -/
theorem turn_of_ask {T : Transport σ κ} {l : Life κ} {d : Demand} {r : Except Failure Unit}
    {h : Handle κ} {hs : List (Handle κ)} {w w' : σ} {calls : List (Record κ)} (i : Nat)
    (ha : l.handle.ask T.recorded d (w, []) = some (r, h :: hs, w', calls)) :
    Turn i l (l.after h calls) (hs.map (new (some i) calls)) := by
  cases hd : d.operation.admittedIn l.handle.stage with
  | false =>
    rw [Handle.ask_of_not_admitted hd] at ha
    cases ha
    exact .denied
  | true =>
    obtain ⟨es, a, hes, hsettle, rfl⟩ := Handle.of_ask_recorded hd ha
    cases a with
    | error e =>
      cases hsettle
      exact .failed hd es e
    | ok a =>
      cases hsettle
      exact .granted hd hes

end Life

namespace Chronicle

open Life (Turn)

variable {T : Transport σ κ} {c c' : Chronicle σ κ}

/-- How the lives go on. -/
inductive Grows (ls : List (Life κ)) : List (Life κ) → Prop where
  | same : Grows ls ls
  | made (s : κ) : Grows ls (ls ++ [.new none [.socket (.ok s)] ⟨s, .created, none, none⟩])
  | turned (i : Nat) {l l' : Life κ} {born : List (Life κ)} (hl : ls[i]? = some l)
      (ht : Turn i l l' born) : Grows ls (ls.set i l' ++ born)

theorem grows_of_step (h : Step T c c') : Grows c.lives c'.lives := by
  cases h with
  | create hc =>
    obtain ⟨hh, rfl⟩ := Handle.of_create_recorded hc
    rw [hh]
    exact .made _
  | fail | elsewhere => exact .same
  | ask i d hl _ ha => exact .turned i hl (Life.turn_of_ask i ha)
  | localAddr i hl _ ha =>
    obtain ⟨r, rfl⟩ := Handle.of_localAddr_recorded ha
    rw [← List.append_nil (List.set ..)]
    exact .turned i hl (.located r)
  | drop i hl _ =>
    rw [← List.append_nil (List.set ..)]
    exact .turned i hl .dropped

/-- What holds of every new life and is kept by every turn holds of all lives. -/
theorem Run.forall_lives {P : Life κ → Prop}
    (hmade : ∀ s, P (.new none [.socket (.ok s)] ⟨s, .created, none, none⟩))
    (hturn : ∀ {i l l' born}, P l → Turn i l l' born → P l' ∧ ∀ b ∈ born, P b)
    (h : Run T c) : ∀ l ∈ c.lives, P l := by
  induction h with
  | start w => simp
  | snoc _ hs ih =>
    rename_i c c' _
    have hg := grows_of_step hs
    generalize c'.lives = ls at hg ⊢
    cases hg with
    | same => exact ih
    | made s =>
      intro l hl
      rcases List.mem_append.mp hl with hl | hl
      · exact ih l hl
      · rw [List.mem_singleton.mp hl]
        exact hmade s
    | turned i hl₀ ht =>
      obtain ⟨hnext, hborn⟩ := hturn (ih _ (List.mem_of_getElem? hl₀)) ht
      intro l hl
      rcases List.mem_append.mp hl with hl | hl
      · rcases List.mem_or_eq_of_mem_set hl with hl | rfl
        · exact ih l hl
        · exact hnext
      · exact hborn l hl

end Chronicle

/-! ### The path of a life -/

namespace Life

/-- A life on the diagram. The calls of a handle are made of its own socket, it does not use the
connection before there is one, and not after it has been shut down. -/
structure Sound (l : Life κ) : Prop where
  begins : ∃ g gs, l.stages = g :: gs ∧ (g = .created ∨ g = .accepted)
  path : l.stages.IsChain Stage.Follows
  last : l.stages.getLast? = some l.handle.stage
  subject : ∀ x ∈ l.calls, x.subject? = some l.handle.socket
  connected : ∀ x ∈ l.calls, x.onConnection = true → l.handle.stage.hasConnected = true
  quiet : l.calls.Pairwise fun x y => x.hangsUp = true → y.onConnection = false
  ended : ∀ x ∈ l.calls, x.hangsUp = true → l.handle.stage = .shutdown

variable {i : Nat} {l l' : Life κ} {born : List (Life κ)}

/-- A life that has come to a final stage is in that stage. -/
theorem Sound.stage_of_final {g : Stage} (hs : Sound l) (hg : g.Final) (hmem : g ∈ l.stages) :
    l.handle.stage = g := by
  obtain ⟨before, after, hstages⟩ := List.append_of_mem hmem
  have hpath := hs.path
  have hlast := hs.last
  rw [hstages] at hpath hlast
  rw [List.getLast?_append_cons] at hlast
  rcases List.mem_cons.mp (List.mem_of_getLast? hlast) with hend | hend
  · exact hend
  · exact Stage.eq_of_isChain hg (List.isChain_append.mp hpath).2.1 _ hend

theorem Sound.new (parent : Option Nat) (birth : List (Record κ)) {h : Handle κ}
    (hg : h.stage = .created ∨ h.stage = .accepted) : Sound (new parent birth h) where
  begins := ⟨h.stage, [], rfl, hg⟩
  path := List.isChain_singleton _
  last := rfl
  subject := by simp [Life.new]
  connected := by simp [Life.new]
  quiet := List.Pairwise.nil
  ended := by simp [Life.new]

/-- A life goes on as it should if the next calls are on the connection only where there is one, and
end by hanging up only where that is the end. -/
theorem Sound.after {h : Handle κ} {calls : List (Record κ)} (hs : Sound l)
    (hg : l.handle.stage.Follows h.stage) (hsocket : h.socket = l.handle.socket)
    (hsubject : ∀ x ∈ calls, x.subject? = some l.handle.socket)
    (hconn : ∀ x ∈ calls, x.onConnection = true → l.handle.stage.isConnection = true)
    (hquiet : calls.Pairwise fun x y => x.hangsUp = true → y.onConnection = false)
    (hover : ∀ x ∈ calls, x.hangsUp = true → h.stage = .shutdown) : Sound (l.after h calls) where
  begins := by
    obtain ⟨g, gs, hstages, hg⟩ := hs.begins
    exact ⟨g, gs ++ [h.stage], by simp [Life.after, hstages], hg⟩
  path := by
    refine List.isChain_append.mpr ⟨hs.path, List.isChain_singleton _, ?_⟩
    intro g hlast g' hhead
    rw [hs.last, Option.mem_some_iff] at hlast
    rw [List.head?_singleton, Option.mem_some_iff] at hhead
    rwa [← hlast, ← hhead]
  last := List.getLast?_concat
  subject := by
    intro x hx
    change _ = some h.socket
    rw [hsocket]
    rcases List.mem_append.mp hx with hx | hx
    · exact hs.subject x hx
    · exact hsubject x hx
  connected := by
    intro x hx hon
    rcases List.mem_append.mp hx with hx | hx
    · exact hg.hasConnected (hs.connected x hx hon)
    · refine hg.hasConnected ?_
      rw [Stage.hasConnected, hconn x hx hon]
      rfl
  quiet := by
    refine List.pairwise_append.mpr ⟨hs.quiet, hquiet, ?_⟩
    intro x hx y hy hh
    -- there is no connection any more
    have hend := hs.ended x hx hh
    cases hy' : y.onConnection with
    | false => rfl
    | true =>
      have hopen := hconn y hy hy'
      rw [hend] at hopen
      cases hopen
  ended := by
    intro x hx hh
    rcases List.mem_append.mp hx with hx | hx
    · have hend := hs.ended x hx hh
      rw [hend] at hg
      exact hg.eq_of_final Stage.final_shutdown
    · exact hover x hx hh

theorem Sound.after_records {d : Demand} {h : Handle κ} (hs : Sound l)
    (hd : d.operation.admittedIn l.handle.stage = true) (es : List IoError)
    (a : Except IoError (d.Answer κ)) (hg : l.handle.stage.Follows h.stage)
    (hsocket : h.socket = l.handle.socket)
    (hover : d = .shutdown → (∃ b, a = .ok b) → h.stage = .shutdown) :
    Sound (l.after h ((d.request l.handle.socket).records es a)) := by
  refine hs.after hg hsocket (fun x => Demand.subject?_of_mem) ?_ (Demand.pairwise_records _ _ _) ?_
  · intro x hx hon
    rw [Demand.onConnection_of_mem hx] at hon
    exact Stage.isConnection_of_admitted hd hon
  · intro x hx hh
    obtain ⟨hshut, hok⟩ := Demand.of_hangsUp hx hh
    exact hover hshut hok

theorem Sound.turn (hs : Sound l) (ht : Turn i l l' born) :
    Sound l' ∧ ∀ b ∈ born, Sound b := by
  cases ht with
  | denied =>
    exact ⟨hs.after (.inl rfl) rfl (by simp) (by simp) .nil (by simp), by simp⟩
  | failed hd es e =>
    refine ⟨hs.after_records hd es _ (Handle.follows_kept _ _) (Handle.socket_kept _ _) ?_, by simp⟩
    rintro - ⟨b, hb⟩
    cases hb
  | granted hd hes =>
    refine ⟨hs.after_records hd _ _ (Handle.follows_moved hd) (Handle.socket_moved _ _) ?_, ?_⟩
    · rintro rfl -
      rfl
    · intro b hb
      obtain ⟨h, hh, rfl⟩ := List.mem_map.mp hb
      exact .new _ _ (.inr (Handle.stage_of_mem_taken hh))
  | located r =>
    exact ⟨hs.after (.inl rfl) rfl (by simp [Record.subject?]) (by simp [Record.onConnection])
      (List.pairwise_singleton _ _) (by simp [Record.hangsUp]), by simp⟩
  | dropped =>
    exact ⟨⟨hs.begins, hs.path, hs.last, hs.subject, hs.connected, hs.quiet, hs.ended⟩, by simp⟩

end Life

namespace Chronicle

open Transport (Passes)

variable {T : Transport σ κ} {c : Chronicle σ κ} {l : Life κ}

theorem sound_of_run (h : Run T c) (hl : l ∈ c.lives) : l.Sound :=
  h.forall_lives (fun _ => .new _ _ (.inl rfl)) (fun hs ht => hs.turn ht) l hl

/-- Over every transport the stages of a handle are a path of the diagram, of which a shutdown is
the end. A handle that listens is never asked to send, receive or shut down, and none is after a
shutdown that has succeeded. What the stage does not admit fails without a call and changes nothing;
what fails otherwise changes nothing but that an accepted handle drains; what succeeds follows the
edge of the operation, if there is one. -/
theorem lifecycle_of_run (hrun : Run T c) (hl : l ∈ c.lives) :
    (∃ g gs, l.stages = g :: gs ∧ (g = .created ∨ g = .accepted)) ∧
    l.stages.getLast? = some l.handle.stage ∧ l.stages.IsChain Stage.Follows ∧
    (∀ before after, l.stages = before ++ .shutdown :: after → ∀ g ∈ after, g = .shutdown) ∧
    (∀ x ∈ l.calls, x.subject? = some l.handle.socket) ∧
    (.listening ∈ l.stages → ∀ x ∈ l.calls, x.onConnection = false) ∧
    (l.calls.Pairwise fun x y => x.hangsUp = true → y.onConnection = false) ∧
    ∀ d w,
      (¬l.handle.stage.Admits d.operation →
        l.handle.ask T.recorded d (w, []) = some
          (.error (.illegalState d.operation.name l.handle.stage), [l.handle], w, [])) ∧
      ∀ r hs w', l.handle.stage.Admits d.operation →
        l.handle.ask T d w = some (r, hs, w') →
        ∃ es a, Passes d es a ∧
          l.handle.ask T.recorded d (w, []) =
            some (r, hs, w', (d.request l.handle.socket).records es a) ∧
          (∀ e, a = .error e → r = .error (l.handle.blame e d) ∧
            hs = [{ l.handle with stage :=
              if d.operation = .recv ∧ l.handle.stage = .accepted then .draining
              else l.handle.stage }]) ∧
          ∀ b, a = .ok b → r = .ok () ∧ ∃ h, hs = h :: l.handle.taken d b ∧
            h.socket = l.handle.socket ∧
            (Stage.Edge d.operation l.handle.stage h.stage ∨
              h.stage = l.handle.stage ∧ ∀ g, ¬Stage.Edge d.operation l.handle.stage g) := by
  have hs := sound_of_run hrun hl
  refine ⟨hs.begins, hs.last, hs.path, ?_, hs.subject, ?_, hs.quiet, ?_⟩
  · intro before after hstages
    have hpath := hs.path
    rw [hstages] at hpath
    exact Stage.eq_of_isChain Stage.final_shutdown (List.isChain_append.mp hpath).2.1
  · intro hmem x hx
    have hlistens := hs.stage_of_final Stage.final_listening hmem
    cases hon : x.onConnection with
    | false => rfl
    | true =>
      have hconn := hs.connected x hx hon
      rw [hlistens] at hconn
      cases hconn
  · intro d w
    rw [Stage.admits_iff, Bool.not_eq_true]
    refine ⟨fun hd => Handle.ask_of_not_admitted hd _, ?_⟩
    intro r ks w' hd ha
    rcases Handle.ask_recorded hd w [] with ⟨-, hnone⟩ | ⟨es, a, w₁, hes, hrec, hsome⟩
    · rw [hnone] at ha
      cases ha
    · rw [hsome] at ha
      cases ha
      refine ⟨es, a, hes, hrec, ?_, ?_⟩
      · rintro e rfl
        exact ⟨rfl, congrArg (· :: []) (Handle.kept_eq _ _)⟩
      · rintro b rfl
        exact ⟨rfl, _, rfl, Handle.socket_moved _ _, Handle.edge_moved hd⟩

/-- A listener cannot send, and a connection that it has accepted and shut down cannot receive. -/
theorem lifecycle_of_served_run :
    ∃ c l, Run Script.transport c ∧ l ∈ c.lives ∧
      l.stages = [.accepted, .shutdown] ∧ l.calls = [.shutdown () .both (.ok ())] ∧
      l.stages.IsChain Stage.Follows ∧
      ∀ w, l.handle.ask Script.transport.recorded (.recv 1) (w, []) =
        some (.error (.illegalState "recv" .shutdown), [l.handle], w, []) := by
  have h := (Run.start (Script.Tape.ofEntries fun _ => []) : Run Script.transport _)
    |>.snoc (.create rfl)
    |>.snoc (.ask 0 (.bind (Descriptor.bind 3 1234)) rfl rfl rfl)
    |>.snoc (.ask 0 (.listen 1) rfl rfl rfl)
    |>.snoc (.ask 0 (.send [1]) rfl rfl rfl)
    |>.snoc (.ask 0 .accept rfl rfl rfl)
    |>.snoc (.ask 1 .shutdown rfl rfl rfl)
  obtain ⟨-, -, hpath, -, -, -, -, hnext⟩ :=
    lifecycle_of_run h (List.mem_cons_of_mem _ List.mem_cons_self)
  exact ⟨_, _, h, List.mem_cons_of_mem _ List.mem_cons_self, rfl, rfl, hpath,
    fun w => (hnext (.recv 1) w).1 (by rw [Stage.admits_iff]; decide)⟩

end Chronicle
end Handoff
