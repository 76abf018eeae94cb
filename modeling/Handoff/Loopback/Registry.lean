import Handoff.Address.Descriptor

/-!
The endpoints in use, each with the number of its queue once it listens, and the choice of a port
for those who ask for none in particular: ports count up from `firstPort`, skip the ones in use,
and start over before the wildcard port.
-/
namespace Handoff.Loopback

abbrev Registry := List (Endpoint × Option Nat)

namespace Registry

/-- What is registered for an endpoint. -/
def get? (r : Registry) (e : Endpoint) : Option (Option Nat) := r.lookup e

def has (r : Registry) (e : Endpoint) : Bool := (r.get? e).isSome

/-- The queue of a listening endpoint. -/
def queue? (r : Registry) (e : Endpoint) : Option Nat := (r.get? e).join

/-- Registers an endpoint, or changes its entry where it stands. -/
def put (r : Registry) (e : Endpoint) (q : Option Nat) : Registry :=
  match r with
  | [] => [(e, q)]
  | (e', q') :: rest => if e' = e then (e, q) :: rest else (e', q') :: put rest e q

def erase (r : Registry) (e : Endpoint) : Registry := r.filter fun p => p.1 ≠ e

@[simp] theorem get?_nil (e : Endpoint) : get? [] e = none := rfl

theorem get?_cons (e e' : Endpoint) (q : Option Nat) (r : Registry) :
    get? ((e', q) :: r) e = if e = e' then some q else get? r e := by
  unfold get?
  rw [List.lookup_cons]
  cases h : e == e' with
  | true => simp [eq_of_beq h]
  | false => simp [beq_eq_false_iff_ne.1 h]

@[simp] theorem get?_put_self (r : Registry) (e : Endpoint) (q : Option Nat) :
    (r.put e q).get? e = some q := by
  induction r with
  | nil => simp [put, get?_cons]
  | cons p rest ih =>
    obtain ⟨e', q'⟩ := p
    by_cases h : e' = e
    · simp [put, h, get?_cons]
    · simp [put, h, get?_cons, Ne.symm h, ih]

theorem get?_put_of_ne {r : Registry} {e f : Endpoint} {q : Option Nat} (hf : f ≠ e) :
    (r.put e q).get? f = r.get? f := by
  induction r with
  | nil => simp [put, get?_cons, hf]
  | cons p rest ih =>
    obtain ⟨e', q'⟩ := p
    by_cases h : e' = e
    · subst h; simp [put, get?_cons, hf]
    · simp [put, h, get?_cons, ih]

end Registry

/-- The least port that is handed out. -/
def firstPort : UInt32 := 40000

/-- The context of a network that is given none. -/
def defaultCid : UInt32 := 3

/-- The port after a port, in the cycle of those handed out. -/
def nextPort (p : UInt32) : UInt32 := if p + 1 = anyPort then firstPort else p + 1

/-- The first of some successive ports that is free in a context. -/
def freePort? (r : Registry) (cid : UInt32) : Nat → UInt32 → Option UInt32
  | 0, _ => none
  | n + 1, p => if r.has ⟨cid, p⟩ then freePort? r cid n (nextPort p) else some p

/-- Hands out a port, with the counter for the next; `none` if no port is free. Of successive
ports no more than there are endpoints can be in use. -/
def allocate? (r : Registry) (cid : UInt32) (counter : UInt32) : Option (UInt32 × UInt32) :=
  (freePort? r cid (r.length + 1) counter).map fun p => (p, nextPort p)

theorem not_has_of_freePort? {r : Registry} {cid : UInt32} {n : Nat} {p q : UInt32}
    (h : freePort? r cid n p = some q) : r.has ⟨cid, q⟩ = false := by
  induction n generalizing p with
  | zero => simp [freePort?] at h
  | succ n ih =>
    unfold freePort? at h
    split at h
    · exact ih h
    · rename_i hp
      simp at h; subst h; exact Bool.eq_false_iff.2 hp

end Handoff.Loopback
