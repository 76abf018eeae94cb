import Handoff.Loopback.Site
import Handoff.Proofs.Loopback.Arrivals
import Handoff.Proofs.Loopback.Binding

/-!
What connections and networks keep to themselves. Whatever is asked at an end of a connection is
answered from that connection and changes no other, and whatever happens in one network of a site
leaves the others as they are. The main statement is `isolation_of_run`.
-/
namespace Handoff.Loopback

/-- What is asked at one end of a connection, by the type of its answer. -/
inductive Transfer : Type → Type where
  | send (data : List UInt8) : Transfer Nat
  | recv (room : Nat) : Transfer (List UInt8)
  | shutdown (how : Direction) : Transfer Unit

/-- The request to the socket that holds the end. -/
def Transfer.request {κ α : Type} (s : κ) : Transfer α → Request κ α
  | send data => .send s data
  | recv room => .recv s room
  | shutdown how => .shutdown s how

/-- What a connection answers at one of its ends, and becomes. -/
def Connection.answer (conn : Connection) (side : Side) {α : Type} :
    Transfer α → Option (Except IoError α × Connection)
  | .send data =>
    match (conn.outgoing side).write data with
    | (.error e, _) => some (.error e, conn)
    | (.ok k, p) => some (.ok k, conn.setOutgoing side p)
  | .recv room =>
    match (conn.incoming side).read room with
    | none => none
    | some (bytes, p) => some (.ok bytes, conn.setIncoming side p)
  | .shutdown how => some (.ok (), conn.shut side how)

namespace Network

variable {n n' n₁ n₂ : Network} {s t c d : Nat} {side side' : Side} {conn : Connection}
  {α β : Type} {q : Transfer α} {q' : Transfer β} {r : Except IoError α} {r' : Except IoError β}

/-! ### Connections -/

def setConnection (n : Network) (c : Nat) (conn : Connection) : Network :=
  { n with connections := n.connections.set c conn }

theorem setConnection_self (hc : n.connections[c]? = some conn) : n.setConnection c conn = n := by
  obtain ⟨hl, rfl⟩ := List.getElem?_eq_some_iff.mp hc
  rw [setConnection, List.set_getElem_self]

theorem setConnection_comm (n : Network) (conn conn' : Connection) (h : c ≠ d) :
    (n.setConnection c conn).setConnection d conn' =
      (n.setConnection d conn').setConnection c conn := by
  simp only [setConnection]
  rw [List.set_comm _ _ h]

/-- What is asked at an end of a connection is answered from that connection alone. -/
theorem call_transfer (hs : (n.slot s).end? = some (c, side)) (hc : n.connections[c]? = some conn)
    (q : Transfer α) :
    n.call (q.request s) =
      (conn.answer side q).map fun x => (x.1, n.setConnection c x.2) := by
  obtain ⟨own, hs⟩ := slot_of_end? hs
  cases q with
  | send data =>
    simp only [call, Transfer.request, send, hs, hc, Connection.answer]
    cases (conn.outgoing side).write data with
    | mk r p =>
      cases r with
      | error e => rw [Option.map_some, setConnection_self hc]
      | ok k => rfl
  | recv room =>
    simp only [call, Transfer.request, recv, hs, hc, Connection.answer]
    cases (conn.incoming side).read room <;> rfl
  | shutdown how =>
    simp only [call, Transfer.request, shutdown, hs, Connection.answer, Option.map_some]
    rw [modifyConnection, List.modify_eq_set_getElem?, hc]
    rfl

/-- A network that differs from another in one connection at most. -/
structure Beside (c : Nat) (n n' : Network) : Prop where
  cid : n'.cid = n.cid
  registry : n'.registry = n.registry
  counter : n'.counter = n.counter
  slots : n'.slots = n.slots
  queues : n'.queues = n.queues
  connections : ∀ k ≠ c, n'.connections[k]? = n.connections[k]?
  pipes : ∀ k ≠ c, ∀ side, n'.pipe k side = n.pipe k side

theorem beside_setConnection (n : Network) (c : Nat) (conn : Connection) :
    Beside c n (n.setConnection c conn) := by
  have hc (k : Nat) (hk : k ≠ c) : (n.setConnection c conn).connections[k]? = n.connections[k]? :=
    List.getElem?_set_ne (Ne.symm hk)
  refine ⟨rfl, rfl, rfl, rfl, rfl, hc, ?_⟩
  intro k hk side
  rw [pipe, connection, hc k hk]
  rfl

/-- The connection that an end belongs to has been made. -/
theorem Wired.exists_connection (h : Wired n) (hs : (n.slot s).end? = some (c, side)) :
    ∃ conn, n.connections[c]? = some conn :=
  ⟨_, List.getElem?_eq_getElem (h.made _ (mem_ends_of_slot hs))⟩

/-- What is asked at an end of a connection changes no other connection, and nothing else. -/
theorem beside_of_transfer (hw : Wired n) (hs : (n.slot s).end? = some (c, side))
    (h : n.call (q.request s) = some (r, n')) : Beside c n n' := by
  obtain ⟨conn, hc⟩ := hw.exists_connection hs
  rw [call_transfer hs hc] at h
  obtain ⟨⟨_, conn'⟩, -, he⟩ := Option.map_eq_some_iff.mp h
  cases he
  exact beside_setConnection n c conn'

/-- What is asked at ends of different connections is answered the same in either order, and leaves
the same behind. -/
theorem transfer_comm (hw : Wired n) (hs : (n.slot s).end? = some (c, side))
    (ht : (n.slot t).end? = some (d, side')) (hcd : c ≠ d)
    (h : n.call (q.request s) = some (r, n₁)) :
    (n₁.call (q'.request t) = none ↔ n.call (q'.request t) = none) ∧
    ∀ r' n₂, n.call (q'.request t) = some (r', n₂) →
      ∃ m, n₁.call (q'.request t) = some (r', m) ∧ n₂.call (q.request s) = some (r, m) := by
  obtain ⟨conn, hc⟩ := hw.exists_connection hs
  obtain ⟨conn', hd⟩ := hw.exists_connection ht
  rw [call_transfer hs hc] at h
  obtain ⟨⟨r, k⟩, hr, he⟩ := Option.map_eq_some_iff.mp h
  cases he
  have hframe := beside_setConnection n c k
  have hframe' (k' : Connection) := beside_setConnection n d k'
  have ht₁ : ((n.setConnection c k).slot t).end? = some (d, side') := ht
  have hd₁ := (hframe.connections d (Ne.symm hcd)).trans hd
  rw [call_transfer ht₁ hd₁, call_transfer ht hd]
  constructor
  · rw [Option.map_eq_none_iff, Option.map_eq_none_iff]
  · intro r' n₂ h'
    obtain ⟨⟨r', k'⟩, hr', he⟩ := Option.map_eq_some_iff.mp h'
    cases he
    have hs₂ : ((n.setConnection d k').slot s).end? = some (c, side) := hs
    have hc₂ := ((hframe' k').connections c hcd).trans hc
    refine ⟨_, by rw [hr']; rfl, ?_⟩
    rw [call_transfer hs₂ hc₂, hr, Option.map_some, setConnection_comm n k k' hcd]

end Network

/-! ### Networks -/

namespace Site

variable {w w' v : Site} {i j k : Nat} {n n' : Network} {α β : Type}

/-- What happens at a site in one step: a request through the transport of a network is answered, a
socket is given up, or a network is added. -/
inductive Event : Type 1 where
  | answered (i : Nat) {α : Type} (q : Request SocketId α) (r : Except IoError α)
  | dropped (s : SocketId)
  | added (cid : UInt32)

/-- The network that a request through the transport of a network concerns. -/
def networkOf (i : Nat) : {α : Type} → Request SocketId α → Nat
  | _, .socket => i
  | _, .bind s _ | _, .listen s _ | _, .accept s | _, .connect s _ | _, .send s _ | _, .recv s _
  | _, .shutdown s _ | _, .localAddr s => s.network

def Event.network? : Event → Option Nat
  | .answered i q _ => some (networkOf i q)
  | .dropped s => some s.network
  | .added _ => none

inductive Step (w : Site) : Event → Site → Prop where
  | call {i : Nat} {α : Type} {q : Request SocketId α} {r : Except IoError α} {w' : Site}
      (h : call i q w = some (r, w')) : Step w (.answered i q r) w'
  | drop (s : SocketId) : Step w (.dropped s) (drop s w)
  | add (cid : UInt32) : Step w (.added cid) (w.add cid)

inductive Run (w : Site) : List (Site × Event) → Site → Prop where
  | nil : Run w [] w
  | snoc {tr : List (Site × Event)} {v v' : Site} {e : Event} (h : Run w tr v) (hs : Step v e v') :
      Run w (tr ++ [(v, e)]) v'

theorem Run.eq_of_nil (h : Run w [] w') : w' = w := by
  generalize htr : ([] : List (Site × Event)) = tr at h
  cases h with
  | nil => rfl
  | snoc _ _ => simp at htr

theorem within_eq {f : Network → Network.Reply α} {r : Except IoError α}
    (hn : w.networks[k]? = some n) (hf : f n = some (r, n')) :
    w.within k f = some (r, ⟨w.networks.set k n'⟩) := by
  simp only [within, hn, hf]

theorem of_tag {f : α → β} {x : Option (Except IoError α × Site)} {r : Except IoError β}
    (h : tag f x = some (r, w')) : ∃ r₀, x = some (r₀, w') ∧ r = r₀.map f := by
  unfold tag at h
  split at h
  · simp at h
  · cases h
    exact ⟨_, rfl, rfl⟩
  · cases h
    exact ⟨_, rfl, rfl⟩

theorem tag_some (f : α → β) (r : Except IoError α) (w : Site) :
    tag f (some (r, w)) = some (r.map f, w) := by cases r <;> rfl

theorem tag_id (x : Option (Except IoError α × Site)) : tag id x = x := by
  unfold tag
  split <;> rfl

/-- A request to a site is a request to one of its networks, but for the names of new sockets. -/
theorem call_eq_tag (i : Nat) (q : Request SocketId α) :
    ∃ (β : Type) (q₀ : Request Nat β) (f : β → α),
      ∀ v, call i q v = tag f (v.within (networkOf i q) fun n => n.call q₀) := by
  cases q with
  | socket => exact ⟨_, .socket, SocketId.mk i, fun v => rfl⟩
  | bind s a => exact ⟨_, .bind s.number a, id, fun v => (tag_id _).symm⟩
  | listen s backlog => exact ⟨_, .listen s.number backlog, id, fun v => (tag_id _).symm⟩
  | accept s =>
    exact ⟨_, .accept s.number, fun x => (SocketId.mk s.network x.1, x.2), fun v => rfl⟩
  | connect s a => exact ⟨_, .connect s.number a, id, fun v => (tag_id _).symm⟩
  | send s data => exact ⟨_, .send s.number data, id, fun v => (tag_id _).symm⟩
  | recv s room => exact ⟨_, .recv s.number room, id, fun v => (tag_id _).symm⟩
  | shutdown s how => exact ⟨_, .shutdown s.number how, id, fun v => (tag_id _).symm⟩
  | localAddr s => exact ⟨_, .localAddr s.number, id, fun v => (tag_id _).symm⟩

/-- What a request is answered depends on the network that it concerns. -/
theorem call_congr (q : Request SocketId α)
    (h : v.networks[networkOf i q]? = w.networks[networkOf i q]?) :
    (call i q v).map Prod.fst = (call i q w).map Prod.fst := by
  obtain ⟨β, q₀, f, hq⟩ := call_eq_tag i q
  rw [hq, hq]
  unfold within
  rw [h]
  cases w.networks[networkOf i q]? with
  | none => rfl
  | some n =>
    dsimp only
    cases n.call q₀ with
    | none => rfl
    | some x => rw [tag_some, tag_some, Option.map_some, Option.map_some]

/-- A request is a step of one network. Whatever the others are, it is answered from that one and
leaves the others alone. -/
theorem of_call {q : Request SocketId α} {r : Except IoError α} (h : call i q w = some (r, w')) :
    ∃ n n' e, w.networks[networkOf i q]? = some n ∧ n.Step e n' ∧
      w' = ⟨w.networks.set (networkOf i q) n'⟩ ∧
      ∀ v : Site, v.networks[networkOf i q]? = some n →
        call i q v = some (r, ⟨v.networks.set (networkOf i q) n'⟩) := by
  obtain ⟨β, q₀, f, hq⟩ := call_eq_tag i q
  rw [hq] at h
  obtain ⟨r₀, hw, rfl⟩ := of_tag h
  obtain ⟨n, n', hn, hf, rfl⟩ := of_within_eq_some hw
  refine ⟨n, n', _, hn, .call hf, rfl, ?_⟩
  intro v hv
  rw [hq, within_eq hv hf, tag_some]

/-- A step is a step of one network, or there is no such network, or it adds one. -/
theorem Step.cases {e : Event} (h : Step w e w') :
    (∃ k n n' e', e.network? = some k ∧ w.networks[k]? = some n ∧ n.Step e' n' ∧
      w' = ⟨w.networks.set k n'⟩ ∧
      ∀ v : Site, v.networks[k]? = some n → Step v e ⟨v.networks.set k n'⟩) ∨
    (∃ k, e.network? = some k ∧ w.networks[k]? = none ∧ w' = w ∧
      ∀ v : Site, v.networks[k]? = none → Step v e v) ∨
    ∃ cid, e = .added cid ∧ w' = w.add cid := by
  cases h with
  | call h =>
    obtain ⟨n, n', e', hn, hs, rfl, hv⟩ := of_call h
    exact .inl ⟨_, n, n', e', rfl, hn, hs, rfl, fun v hn => .call (hv v hn)⟩
  | drop s =>
    cases hn : w.networks[s.network]? with
    | none =>
      have hd (v : Site) (hv : v.networks[s.network]? = none) : Site.drop s v = v := by
        rw [Site.drop, List.modify_eq_self (List.getElem?_eq_none_iff.mp hv)]
      refine .inr (.inl ⟨s.network, rfl, hn, hd w hn, ?_⟩)
      intro v hv
      have hs := Step.drop (w := v) s
      rwa [hd v hv] at hs
    | some n =>
      have hd (v : Site) (hv : v.networks[s.network]? = some n) :
          Site.drop s v = ⟨v.networks.set s.network (n.drop s.number)⟩ := by
        rw [Site.drop, List.modify_eq_set_getElem?, hv]
        rfl
      refine .inl ⟨s.network, n, _, _, rfl, hn, .drop s.number, hd w hn, ?_⟩
      intro v hv
      have hs := Step.drop (w := v) s
      rwa [hd v hv] at hs
  | add cid => exact .inr (.inr ⟨cid, rfl, rfl⟩)

/-- A network is left as it is by all that does not happen in it. -/
theorem Step.frame {e : Event} (h : Step w e w') (hj : j < w.networks.length)
    (he : e.network? ≠ some j) : w'.networks[j]? = w.networks[j]? := by
  rcases h.cases with ⟨k, n, n', e', hk, hn, -, rfl, -⟩ | ⟨k, hk, -, rfl, -⟩ | ⟨cid, rfl, rfl⟩
  · have hne : k ≠ j := by
      rintro rfl
      exact he hk
    exact List.getElem?_set_ne hne
  · rfl
  · exact List.getElem?_append_left hj

theorem Step.length_le {e : Event} (h : Step w e w') : w.networks.length ≤ w'.networks.length := by
  rcases h.cases with ⟨k, n, n', e', -, -, -, rfl, -⟩ | ⟨k, -, -, rfl, -⟩ | ⟨cid, -, rfl⟩
  · exact Nat.le_of_eq (List.length_set).symm
  · exact Nat.le_refl _
  · simp [Site.add]

def Event.within (j : Nat) (e : Event) : Bool := e.network? = some j

/-- What happens in one network of a site makes up a run on its own: nothing else was needed for
it, or has had any part in it. -/
theorem Run.alone {tr : List (Site × Event)} (h : Run w tr w') (hj : j < w.networks.length) :
    j < w'.networks.length ∧
    ∃ tr₁ w₁, Run w tr₁ w₁ ∧ tr₁.map Prod.snd = (tr.map Prod.snd).filter (Event.within j) ∧
      w₁.networks[j]? = w'.networks[j]? := by
  induction h with
  | nil => exact ⟨hj, [], w, .nil, rfl, rfl⟩
  | @snoc tr v v' e h hs ih =>
    obtain ⟨hl, tr₁, w₁, hr, htr, hw⟩ := ih
    refine ⟨Nat.lt_of_lt_of_le hl hs.length_le, ?_⟩
    rw [List.map_append, List.filter_append, ← htr]
    by_cases he : e.network? = some j
    · have hstep : ∃ w₂, Step w₁ e w₂ ∧ w₂.networks[j]? = v'.networks[j]? := by
        rcases hs.cases with ⟨k, n, n', e', hk, hn, -, rfl, hv⟩ | ⟨k, hk, hn, rfl, hv⟩ |
          ⟨cid, rfl, -⟩
        · cases hk.symm.trans he
          have hl₁ := (List.getElem?_eq_some_iff.mp (hw.trans hn)).1
          refine ⟨_, hv w₁ (hw.trans hn), ?_⟩
          rw [List.getElem?_set_self hl₁, List.getElem?_set_self hl]
        · cases hk.symm.trans he
          exact ⟨w₁, hv w₁ (hw.trans hn), hw⟩
        · simp [Event.network?] at he
      obtain ⟨w₂, hs₂, hw₂⟩ := hstep
      refine ⟨_, w₂, hr.snoc hs₂, ?_, hw₂⟩
      simp [Event.within, he]
    · refine ⟨tr₁, w₁, hr, by simp [Event.within, he], ?_⟩
      rw [hw, hs.frame hl he]

/-- Every network of a site that began with none has come about by a run of its own. -/
theorem Run.reaches {tr : List (Site × Event)} (h : Run ⟨[]⟩ tr w) (hn : w.networks[j]? = some n) :
    ∃ cid tr', Network.Run (.ofCid cid) tr' n := by
  induction h generalizing n with
  | nil => simp at hn
  | snoc h hs ih =>
    rcases hs.cases with ⟨k, m, m', e', -, hm, hstep, rfl, -⟩ | ⟨k, -, -, rfl, -⟩ | ⟨cid, -, rfl⟩
    · rw [List.getElem?_set] at hn
      split at hn
      · rename_i hk
        subst hk
        obtain ⟨cid, tr', hr⟩ := ih hm
        split at hn
        · cases hn
          exact ⟨cid, _, hr.snoc hstep⟩
        · simp at hn
      · exact ih hn
    · exact ih hn
    · rw [add, List.getElem?_append] at hn
      split at hn
      · exact ih hn
      · obtain ⟨-, rfl⟩ := List.getElem?_eq_some_iff.mp hn
        exact ⟨cid, [], by simpa using Network.Run.nil⟩

/-! ### Sockets that share a network -/

/-- A socket of the same network cannot be bound to an endpoint that is held. -/
theorem bind_of_held {s t : Nat} {a : Descriptor} {e : Endpoint} {x : Option Nat}
    (hn : w.networks[j]? = some n) (ho : n.Owned) (hs : (n.slot s).holding? = some (e, x))
    (ht : n.slot t = .fresh) (ha : n.Names a e) :
    call i (.bind ⟨j, t⟩ a) w = some (.error (.plain .addrInUse), w) := by
  have hhas : n.registry.has e = true := by rw [Registry.has, ho.registered hs]; rfl
  have hw := within_eq (f := fun n => n.bind t a) hn (Network.bind_of_taken ht ha hhas)
  obtain ⟨hl, rfl⟩ := List.getElem?_eq_some_iff.mp hn
  rw [List.set_getElem_self] at hw
  exact hw

/-- A socket of the same network that connects to a listener waits at the end of its queue, if the
queue has room. -/
theorem connect_of_held {s t q : Nat} {own target : Descriptor} {queue : Queue}
    {bound : Option Descriptor} (hn : w.networks[j]? = some n) (ho : n.Owned)
    (hs : n.slot s = .listening own q) (hq : n.queues[q]? = some queue)
    (hroom : queue.pending.length < queue.backlog) (ht : n.slot t = Slot.ofCaller bound)
    (he : target.endpoint = own.endpoint)
    (hf : bound = none → ∃ p, HandedOut p ∧ n.registry.has ⟨n.cid, p⟩ = false) :
    ∃ n' p, call i (.connect ⟨j, t⟩ target) w = some (.ok (), ⟨w.networks.set j n'⟩) ∧
      n'.waitingIn q = n.waitingIn q ++ [p] := by
  have hp : n.Places q queue.backlog := ⟨queue, hq, rfl, Nat.le_of_lt hroom⟩
  obtain ⟨n', hc⟩ := Network.connect_of_listening ho hs hp ht he hf
  rw [Network.waitingIn_of_getElem? hq, if_pos hroom] at hc
  have hstep : n.Step (.answered (.connect t target) (.ok ())) n' := .call hc
  obtain ⟨own', -, hw⟩ :=
    Network.waitingIn_of_connects ho (Network.change_of_step hstep) hs rfl he
  exact ⟨n', _, within_eq (f := fun n => n.connect t target) hn hc, hw⟩

/-- Connections keep to themselves, and so do networks. Every end of a connection has one holder.
What is asked at an end changes no other connection and nothing else, so that what is asked at two
connections is answered the same in either order and leaves the same behind. What happens in one
network of a site is what happens there on its own, whatever happens in the others, and through the
sockets of that network nothing else can be told. Sockets of the same network, through whichever
transport they were made, see each other's endpoints. -/
theorem isolation_of_run {tr : List (Site × Event)} (h : Run ⟨[]⟩ tr w) :
    (∀ (i : Nat) n, w.networks[i]? = some n →
      (∀ s t x, (n.slot s).end? = some x → (n.slot t).end? = some x → s = t) ∧
      (∀ s c side α (q : Transfer α) r n', (n.slot s).end? = some (c, side) →
        n.call (q.request s) = some (r, n') → n.Beside c n') ∧
      (∀ s t c d side side' α β (q : Transfer α) (q' : Transfer β) r n₁,
        (n.slot s).end? = some (c, side) → (n.slot t).end? = some (d, side') → c ≠ d →
        n.call (q.request s) = some (r, n₁) →
        (n₁.call (q'.request t) = none ↔ n.call (q'.request t) = none) ∧
        ∀ r' n₂, n.call (q'.request t) = some (r', n₂) →
          ∃ m, n₁.call (q'.request t) = some (r', m) ∧ n₂.call (q.request s) = some (r, m))) ∧
    (∀ tr' w' j, Run w tr' w' → j < w.networks.length →
      ∃ tr₁ w₁, Run w tr₁ w₁ ∧ tr₁.map Prod.snd = (tr'.map Prod.snd).filter (Event.within j) ∧
        w₁.networks[j]? = w'.networks[j]? ∧
        ∀ i α (q : Request SocketId α), networkOf i q = j →
          (call i q w₁).map Prod.fst = (call i q w').map Prod.fst) ∧
    (∀ (i j : Nat) n s e x, w.networks[j]? = some n → (n.slot s).holding? = some (e, x) →
      (∀ t a, n.slot t = .fresh → n.Names a e →
        call i (.bind ⟨j, t⟩ a) w = some (.error (.plain .addrInUse), w)) ∧
      (∀ q queue t bound target, x = some q → n.queues[q]? = some queue →
        queue.pending.length < queue.backlog → n.slot t = Slot.ofCaller bound →
        target.endpoint = e →
        (bound = none → ∃ p, HandedOut p ∧ n.registry.has ⟨n.cid, p⟩ = false) →
        ∃ n' p, call i (.connect ⟨j, t⟩ target) w = some (.ok (), ⟨w.networks.set j n'⟩) ∧
          n'.waitingIn q = n.waitingIn q ++ [p])) := by
  refine ⟨?_, ?_, ?_⟩
  · intro i n hn
    obtain ⟨cid, tr', hr⟩ := h.reaches hn
    have hw := Network.wired_of_run hr (Network.wired_ofCid cid)
    refine ⟨fun s t x => hw.holder_unique, ?_, ?_⟩
    · intro s c side α q r n' hs hc
      exact Network.beside_of_transfer hw hs hc
    · intro s t c d side side' α β q q' r n₁ hs ht hcd hc
      exact Network.transfer_comm hw hs ht hcd hc
  · intro tr' w' j hr hj
    obtain ⟨-, tr₁, w₁, hr₁, htr, hw⟩ := hr.alone hj
    refine ⟨tr₁, w₁, hr₁, htr, hw, ?_⟩
    rintro i α q rfl
    exact call_congr q hw
  · intro i j n s e x hn hs
    obtain ⟨cid, tr', hr⟩ := h.reaches hn
    have ho := Network.owned_of_run hr (Network.owned_ofCid cid)
    refine ⟨fun t a ht ha => bind_of_held hn ho hs ht ha, ?_⟩
    rintro q queue t bound target rfl hq hroom ht he hf
    obtain ⟨s', own, hs', rfl⟩ := ho.exists_listener (ho.registered hs)
    exact connect_of_held hn ho hs' hq hroom ht he hf

/-- Two networks of one context with a listener each, on the same endpoint. In the first it is taken
for other sockets, and a caller is let in; the second goes the way it would have gone alone. -/
theorem isolation_of_twin_run :
    ∃ tr w, Run ⟨[]⟩ tr w ∧
      call 0 (.bind ⟨0, 1⟩ (Descriptor.bind 3 1234)) w = some (.error (.plain .addrInUse), w) ∧
      (∃ w', call 0 (.connect ⟨0, 1⟩ (Descriptor.remote 3 1234)) w = some (.ok (), w')) ∧
      ∀ tr' w', Run w tr' w' → (∀ e ∈ tr'.map Prod.snd, e.network? = some 0) →
        w'.networks[1]? = w.networks[1]? := by
  have h := Run.nil (w := ⟨[]⟩)
    |>.snoc (.add 3)
    |>.snoc (.add 3)
    |>.snoc (.call (i := 0) (q := .socket) rfl)
    |>.snoc (.call (i := 0) (q := .bind ⟨0, 0⟩ (Descriptor.bind 3 1234)) rfl)
    |>.snoc (.call (i := 0) (q := .listen ⟨0, 0⟩ 1) rfl)
    |>.snoc (.call (i := 0) (q := .socket) rfl)
    |>.snoc (.call (i := 1) (q := .socket) rfl)
    |>.snoc (.call (i := 1) (q := .bind ⟨1, 0⟩ (Descriptor.bind 3 1234)) rfl)
    |>.snoc (.call (i := 1) (q := .listen ⟨1, 0⟩ 1) rfl)
  obtain ⟨-, halone, hshared⟩ := isolation_of_run h
  obtain ⟨hbind, hconnect⟩ := hshared 0 0 _ 0 ⟨3, 1234⟩ (some 0) rfl rfl
  refine ⟨_, _, h, hbind 1 _ rfl (.asked (by decide)), ?_, ?_⟩
  · obtain ⟨n', p, hc, -⟩ := hconnect 0 _ 1 none (Descriptor.remote 3 1234) rfl rfl (by decide) rfl
      rfl fun _ => ⟨40000, by unfold HandedOut; decide, rfl⟩
    exact ⟨_, hc⟩
  · intro tr' w' hr hin
    obtain ⟨tr₁, w₁, hr₁, htr, hw, -⟩ := halone tr' w' 1 hr (by decide)
    have hnone : (tr'.map Prod.snd).filter (Event.within 1) = [] := by
      refine List.filter_eq_nil_iff.mpr ?_
      intro e he
      simp [Event.within, hin e he]
    rw [hnone, List.map_eq_nil_iff] at htr
    subst htr
    rw [← hw, hr₁.eq_of_nil]

end Site
end Handoff.Loopback
