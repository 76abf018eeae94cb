import Handoff.Proofs.Loopback.Frame

/-!
What an address to bind to stands for. A wildcard context is the network's own, and a wildcard port
is the next free one. Binding succeeds exactly when the endpoint is free.
-/
namespace Handoff.Loopback.Network

variable {n : Network} {s : Nat} {a : Descriptor} {key key' : Endpoint}

/-- The context that an address to bind to stands for. -/
def home (n : Network) (a : Descriptor) : UInt32 := if a.cid = anyCid then n.cid else a.cid

/-- The endpoint that an address to bind to stands for. -/
inductive Names (n : Network) (a : Descriptor) : Endpoint → Prop where
  | asked (ha : a.port ≠ anyPort) : Names n a ⟨n.home a, a.port⟩
  | chosen {port : UInt32} (ha : a.port = anyPort)
      (hp : NextFree n.registry (n.home a) n.counter port) : Names n a ⟨n.home a, port⟩

/-- The port counter after binding to an address that stands for an endpoint. -/
def counterAfter (n : Network) (a : Descriptor) (key : Endpoint) : UInt32 :=
  if a.port = anyPort then nextPort key.port else n.counter

theorem Names.unique (h : n.Names a key) (h' : n.Names a key') : key = key' := by
  cases h with
  | asked ha =>
    cases h' with
    | asked _ => rfl
    | chosen ha' _ => exact absurd ha' ha
  | chosen ha hp =>
    cases h' with
    | asked ha' => exact absurd ha ha'
    | chosen _ hp' => rw [hp.unique hp']

/-- Every address stands for an endpoint, while ports are free for those who ask for none. -/
theorem exists_names (hc : HandedOut n.counter)
    (hf : a.port = anyPort → ∃ p, HandedOut p ∧ n.registry.has ⟨n.home a, p⟩ = false) :
    ∃ key, n.Names a key := by
  by_cases ha : a.port = anyPort
  · obtain ⟨p, hp, hfree⟩ := hf ha
    obtain ⟨port, hport⟩ := exists_nextFree hc hp hfree
    exact ⟨_, .chosen ha hport⟩
  · exact ⟨_, .asked ha⟩

theorem Names.port_ne (h : n.Names a key) (hc : HandedOut n.counter) : key.port ≠ anyPort := by
  cases h with
  | asked ha => exact ha
  | chosen _ hp => exact (hp.handedOut hc).2

theorem Names.choosePort_eq (h : n.Names a key) (hc : HandedOut n.counter) :
    n.choosePort (n.home a) a.port =
      some (key.port, { n with counter := n.counterAfter a key }) := by
  cases h with
  | asked ha => rw [choosePort, if_neg ha, counterAfter, if_neg ha]
  | chosen ha hp =>
    rw [choosePort, if_pos ha, allocate?_of_nextFree hc hp, counterAfter, if_pos ha]
    rfl

theorem Names.cid_eq (h : n.Names a key) : key.cid = n.home a := by cases h <;> rfl

theorem bind_of_free (hs : n.slot s = .fresh) (hk : n.Names a key) (hc : HandedOut n.counter)
    (hf : n.registry.has key = false) :
    n.bind s a = some (.ok (), { n with
      counter := n.counterAfter a key
      registry := n.registry.put key none
      slots := n.slots.set s (.bound (Descriptor.local key.cid key.port)) }) := by
  have he : (⟨n.home a, key.port⟩ : Endpoint) = key := by rw [← hk.cid_eq]
  have hp := hk.choosePort_eq hc
  unfold home at he hp
  simp only [bind, hs, hp, he, hf, hk.cid_eq]
  rfl

theorem bind_of_taken (hs : n.slot s = .fresh) (hk : n.Names a key)
    (ht : n.registry.has key = true) : n.bind s a = some (.error (.plain .addrInUse), n) := by
  cases hk with
  | asked ha =>
    unfold home at ht
    simp only [bind, hs, choosePort, if_neg ha, ht, if_true]
  | chosen _ hp =>
    -- a port chosen for the caller is free
    rw [hp.free] at ht
    simp at ht

/-- A network with a new socket. -/
def made (n : Network) : Network := { n with slots := n.slots ++ [.fresh] }

theorem slot_made (n : Network) : n.made.slot n.slots.length = .fresh := by
  rw [slot_of_slots_append (n := n) rfl, if_pos rfl]

/-- A new socket that is given up leaves nothing behind but its number. -/
theorem drop_made (n : Network) :
    n.made.drop n.slots.length = { n with slots := n.slots ++ [.closed] } := by
  rw [drop_eq, slot_made]
  simp only [Slot.holding?, Slot.queue?, severed, made, set_append_length]

/-- A new socket has no part in what an address stands for. -/
theorem Names.made (h : n.Names a key) : n.made.Names a key := by
  cases h with
  | asked ha => exact .asked ha
  | chosen ha hp => exact .chosen ha hp

end Handoff.Loopback.Network
