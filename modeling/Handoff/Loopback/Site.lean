import Handoff.Loopback.Network

/-!
Several networks side by side. A socket is named by its network and its number there, and a request
concerns the one network of its socket; a new socket comes from the network that the transport is
for. Transports for the same network share all that is in it.
-/
namespace Handoff.Loopback

/-- A socket of a site. -/
structure SocketId where
  network : Nat
  number : Nat
  deriving DecidableEq, Repr

structure Site where
  networks : List Network
  deriving DecidableEq, Repr

namespace Site

def ofCid (cid : UInt32) : Site := ⟨[.ofCid cid]⟩

/-- Adds a network; it is the last. -/
def add (w : Site) (cid : UInt32) : Site := ⟨w.networks ++ [.ofCid cid]⟩

def cid (w : Site) (i : Nat) : UInt32 := (w.networks[i]?.map Network.cid).getD defaultCid

/-- The number of endpoints in use in a network. -/
def boundEndpoints (w : Site) (i : Nat) : Nat :=
  (w.networks[i]?.map Network.boundEndpoints).getD 0

/-- Does within a network what `f` does. -/
def within {α : Type} (w : Site) (i : Nat) (f : Network → Network.Reply α) :
    Option (Except IoError α × Site) :=
  match w.networks[i]? with
  | none => none
  | some n =>
    match f n with
    | none => none
    | some (r, n) => some (r, ⟨w.networks.set i n⟩)

/-- Names an accepted or created socket for the whole site. -/
def tag {α β : Type} (f : α → β) :
    Option (Except IoError α × Site) → Option (Except IoError β × Site)
  | none => none
  | some (.error e, w) => some (.error e, w)
  | some (.ok a, w) => some (.ok (f a), w)

/-- Answers a request; a new socket is made in network `i`. -/
def call (i : Nat) {α : Type} (q : Request SocketId α) (w : Site) :
    Option (Except IoError α × Site) :=
  match q with
  | .socket => tag (SocketId.mk i) (w.within i Network.socket)
  | .bind s a => w.within s.network fun n => n.bind s.number a
  | .listen s backlog => w.within s.network fun n => n.listen s.number backlog
  | .accept s =>
    tag (fun (k, peer) => (SocketId.mk s.network k, peer))
      (w.within s.network fun n => n.accept s.number)
  | .connect s a => w.within s.network fun n => n.connect s.number a
  | .send s data => w.within s.network fun n => n.send s.number data
  | .recv s room => w.within s.network fun n => n.recv s.number room
  | .shutdown s how => w.within s.network fun n => n.shutdown s.number how
  | .localAddr s => w.within s.network fun n => n.localAddr s.number

def drop (s : SocketId) (w : Site) : Site := ⟨w.networks.modify s.network (·.drop s.number)⟩

/-- The bytes under way in some networks. -/
def bufferedIn : List Network → Nat
  | [] => 0
  | n :: ns => n.buffered + bufferedIn ns

def buffered (w : Site) : Nat := bufferedIn w.networks

theorem bufferedIn_set_lt {ns : List Network} {i : Nat} {n m : Network}
    (hn : ns[i]? = some n) (h : m.buffered < n.buffered) :
    bufferedIn (ns.set i m) < bufferedIn ns := by
  induction ns generalizing i with
  | nil => simp at hn
  | cons a ns ih =>
    cases i with
    | zero => simp at hn; subst hn; simp [bufferedIn]; omega
    | succ i => have := ih (by simpa using hn); simp [bufferedIn]; omega

theorem of_within_eq_some {α : Type} {w w' : Site} {i : Nat} {f : Network → Network.Reply α}
    {r : Except IoError α} (h : w.within i f = some (r, w')) :
    ∃ n n', w.networks[i]? = some n ∧ f n = some (r, n') ∧ w' = ⟨w.networks.set i n'⟩ := by
  unfold within at h
  split at h
  · simp at h
  rename_i n hn
  split at h
  · simp at h
  rename_i n' hf
  simp at h
  exact ⟨n, n', hn, h.1 ▸ hf, h.2.symm⟩

/-- The transport whose sockets are made in network `i`. -/
def transport (i : Nat) : Transport Site SocketId where
  name := Network.transport.name
  call := call i
  release := drop
  budget := buffered
  budget_recv h hb := by
    obtain ⟨n, n', hn, hf, rfl⟩ := of_within_eq_some h
    exact bufferedIn_set_lt hn (Network.buffered_lt_of_recv hf hb)
  budget_recv_interrupted h hi := by
    obtain ⟨n, n', -, hf, rfl⟩ := of_within_eq_some h
    simp [Network.not_interrupted_of_recv hf] at hi
  budget_send_interrupted h hi := by
    obtain ⟨n, n', -, hf, rfl⟩ := of_within_eq_some h
    simp [Network.not_interrupted_of_send hf] at hi

end Site
end Handoff.Loopback
