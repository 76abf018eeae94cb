import Handoff.Loopback.Registry
import Mathlib.Data.List.Perm.Subperm

/-!
The registry as a finite map with distinct keys: what putting and erasing do to its entries as a
bag, which ports are handed out, and what it is to list the endpoints that some holders have.
-/
namespace Handoff.Loopback

namespace Registry

def keys (r : Registry) : List Endpoint := r.map Prod.fst

theorem get?_eq_none_iff (r : Registry) (e : Endpoint) : r.get? e = none ↔ e ∉ r.keys := by
  induction r with
  | nil => simp [keys]
  | cons p r ih =>
    obtain ⟨f, q⟩ := p
    by_cases h : e = f
    · simp [get?_cons, keys, h]
    · simpa [get?_cons, keys, h] using ih

theorem has_eq_false_iff (r : Registry) (e : Endpoint) : r.has e = false ↔ e ∉ r.keys := by
  rw [← get?_eq_none_iff, has]
  cases r.get? e <;> simp

theorem has_iff (r : Registry) (e : Endpoint) : r.has e = true ↔ e ∈ r.keys := by
  have h := has_eq_false_iff r e
  cases hr : r.has e <;> simp_all

theorem mem_of_get? {r : Registry} {e : Endpoint} {q : Option Nat} (h : r.get? e = some q) :
    (e, q) ∈ r := by
  induction r with
  | nil => simp at h
  | cons p r ih =>
    obtain ⟨f, q'⟩ := p
    rw [get?_cons] at h
    by_cases hf : e = f
    · simp_all
    · rw [if_neg hf] at h
      exact List.mem_cons_of_mem _ (ih h)

theorem get?_of_mem {r : Registry} (hn : r.keys.Nodup) {e : Endpoint} {q : Option Nat}
    (h : (e, q) ∈ r) : r.get? e = some q := by
  induction r with
  | nil => simp at h
  | cons p r ih =>
    obtain ⟨f, q'⟩ := p
    have hk : f ∉ keys r ∧ (keys r).Nodup := by simpa [keys] using hn
    rw [get?_cons]
    rcases List.mem_cons.mp h with he | he
    · cases he; simp
    · have hf : e ≠ f := by
        intro he'
        subst he'
        exact hk.1 (List.mem_map.mpr ⟨_, he, rfl⟩)
      rw [if_neg hf]
      exact ih hk.2 he

theorem queue?_eq_some_iff (r : Registry) (e : Endpoint) (q : Nat) :
    r.queue? e = some q ↔ r.get? e = some (some q) :=
  Option.join_eq_some_iff

/-- A new key goes to the end. -/
theorem put_eq_append {r : Registry} {e : Endpoint} (h : r.has e = false) (q : Option Nat) :
    r.put e q = r ++ [(e, q)] := by
  rw [has_eq_false_iff] at h
  induction r with
  | nil => rfl
  | cons p r ih =>
    obtain ⟨f, q'⟩ := p
    simp only [keys, List.map_cons, List.mem_cons, not_or] at h
    simp [put, Ne.symm h.1, ih h.2]

theorem put_put (r : Registry) (e : Endpoint) (q q' : Option Nat) :
    (r.put e q).put e q' = r.put e q' := by
  induction r with
  | nil => simp [put]
  | cons p r ih =>
    obtain ⟨f, x⟩ := p
    by_cases hf : f = e
    · simp [put, hf]
    · simp [put, hf, ih]

theorem erase_eq_self {r : Registry} {e : Endpoint} (h : e ∉ r.keys) : r.erase e = r := by
  refine List.filter_eq_self.mpr ?_
  intro p hp
  have hne : p.1 ≠ e := by
    intro he
    exact h (he ▸ List.mem_map.mpr ⟨p, hp, rfl⟩)
  simp [hne]

/-- Giving a new key back leaves no trace of it. -/
theorem erase_put {r : Registry} {e : Endpoint} (h : r.has e = false) (q : Option Nat) :
    (r.put e q).erase e = r := by
  rw [put_eq_append h]
  have hr := erase_eq_self ((has_eq_false_iff r e).mp h)
  unfold erase at hr ⊢
  rw [List.filter_append, hr]
  simp

theorem erase_cons_self (e : Endpoint) (q : Option Nat) (r : Registry) :
    erase ((e, q) :: r) e = erase r e := by simp [erase]

theorem erase_cons_of_ne {e f : Endpoint} (h : f ≠ e) (q : Option Nat) (r : Registry) :
    erase ((f, q) :: r) e = (f, q) :: erase r e := by simp [erase, h]

theorem get?_erase (r : Registry) (e f : Endpoint) :
    (r.erase e).get? f = if f = e then none else r.get? f := by
  induction r with
  | nil => simp [erase]
  | cons p r ih =>
    obtain ⟨g, q⟩ := p
    by_cases hg : g = e
    · subst hg
      rw [erase_cons_self, ih, get?_cons]
      by_cases hf : f = g <;> simp [hf]
    · rw [erase_cons_of_ne hg, get?_cons, get?_cons, ih]
      by_cases hf : f = e
      · subst hf
        simp [Ne.symm hg]
      · simp [hf]

/-- Changing an entry leaves the keys as they are. -/
theorem keys_put {r : Registry} {e : Endpoint} (h : e ∈ r.keys) (q : Option Nat) :
    (r.put e q).keys = r.keys := by
  induction r with
  | nil => simp [keys] at h
  | cons p r ih =>
    obtain ⟨f, q'⟩ := p
    by_cases hf : f = e
    · subst hf
      simp [put, keys]
    · have he : e ∈ keys r := by simpa [keys, Ne.symm hf] using h
      rw [put, if_neg hf]
      exact congrArg (f :: ·) (ih he)

theorem nodup_keys_put {r : Registry} (h : r.keys.Nodup) (e : Endpoint) (q : Option Nat) :
    (r.put e q).keys.Nodup := by
  by_cases he : e ∈ r.keys
  · rwa [keys_put he]
  · rw [put_eq_append ((has_eq_false_iff r e).mpr he), keys, List.map_append, List.nodup_append]
    refine ⟨h, by simp, ?_⟩
    intro a ha b hb hab
    rw [hab, List.mem_singleton.mp hb] at ha
    exact he ha

theorem nodup_keys_erase {r : Registry} (h : r.keys.Nodup) (e : Endpoint) :
    (r.erase e).keys.Nodup :=
  (List.filter_sublist.map _).nodup h

/-- An entry and the others. -/
theorem perm_cons_erase {r : Registry} (hn : r.keys.Nodup) {e : Endpoint} {q : Option Nat}
    (h : (e, q) ∈ r) : r.Perm ((e, q) :: r.erase e) := by
  induction r with
  | nil => simp at h
  | cons p r ih =>
    obtain ⟨f, q'⟩ := p
    have hk : f ∉ keys r ∧ (keys r).Nodup := by simpa [keys] using hn
    rcases List.mem_cons.mp h with he | he
    · cases he
      rw [erase_cons_self, erase_eq_self hk.1]
    · have hf : f ≠ e := by
        intro he'
        subst he'
        exact hk.1 (List.mem_map.mpr ⟨_, he, rfl⟩)
      rw [erase_cons_of_ne hf]
      exact ((ih hk.2 he).cons _).trans (List.Perm.swap ..)

/-- Changing an entry leaves the others. -/
theorem perm_put {r : Registry} (hn : r.keys.Nodup) {e : Endpoint} (h : e ∈ r.keys)
    (q : Option Nat) : (r.put e q).Perm ((e, q) :: r.erase e) := by
  induction r with
  | nil => simp [keys] at h
  | cons p r ih =>
    obtain ⟨f, q'⟩ := p
    have hk : f ∉ keys r ∧ (keys r).Nodup := by simpa [keys] using hn
    by_cases hf : f = e
    · subst hf
      rw [put, if_pos rfl, erase_cons_self, erase_eq_self hk.1]
    · have he : e ∈ keys r := by simpa [keys, Ne.symm hf] using h
      rw [put, if_neg hf, erase_cons_of_ne hf]
      exact ((ih hk.2 he).cons _).trans (List.Perm.swap ..)

/-- A registry that lists what is held by some numbered holders, every endpoint once. -/
structure Lists (r : Registry) (f : Nat → Option (Endpoint × Option Nat)) : Prop where
  nodup : r.keys.Nodup
  registered : ∀ s e q, f s = some (e, q) → r.get? e = some q
  held : ∀ e q, r.get? e = some q → ∃ s, f s = some (e, q)
  unique : ∀ s t e q q', f s = some (e, q) → f t = some (e, q') → s = t

namespace Lists

variable {r : Registry} {f g : Nat → Option (Endpoint × Option Nat)} {s : Nat} {e : Endpoint}
  {q : Option Nat}

/-- A holder claims an endpoint that is free, or changes the entry of its own. -/
theorem put (h : r.Lists f) (hs : f s = none ∧ r.has e = false ∨ ∃ q', f s = some (e, q'))
    (q : Option Nat) (hg : ∀ t, g t = if t = s then some (e, q) else f t) :
    (r.put e q).Lists g := by
  have hother {t : Nat} {q' : Option Nat} (ht : t ≠ s) : f t ≠ some (e, q') := by
    intro hx
    rcases hs with ⟨-, hfree⟩ | ⟨k, hk⟩
    · simp [has, h.registered t e q' hx] at hfree
    · exact ht (h.unique t s e q' k hx hk)
  constructor
  · exact nodup_keys_put h.nodup e q
  · intro t e' q' ht
    rw [hg] at ht
    split at ht
    · cases ht
      exact get?_put_self r e q
    · rename_i hts
      have he : e' ≠ e := by
        rintro rfl
        exact hother hts ht
      rw [get?_put_of_ne he]
      exact h.registered t e' q' ht
  · intro e' q' hget
    by_cases he : e' = e
    · subst he
      rw [get?_put_self] at hget
      cases hget
      exact ⟨s, by rw [hg, if_pos rfl]⟩
    · rw [get?_put_of_ne he] at hget
      obtain ⟨t, ht⟩ := h.held e' q' hget
      refine ⟨t, ?_⟩
      rw [hg, if_neg, ht]
      -- the holder had nothing, or the entry that is changed
      rintro rfl
      rcases hs with ⟨hn, -⟩ | ⟨k, hk⟩
      · simp [hn] at ht
      · rw [hk] at ht
        cases ht
        exact he rfl
  · intro t u e' k k' ht hu
    rw [hg] at ht hu
    split at ht <;> split at hu
    · rename_i hts hus
      exact hts.trans hus.symm
    · rename_i hts hus
      cases ht
      exact absurd hu (hother hus)
    · rename_i hts hus
      cases hu
      exact absurd ht (hother hts)
    · exact h.unique t u e' k k' ht hu

/-- A holder gives back its endpoint, and no other is lost. -/
theorem erase (h : r.Lists f) (hs : f s = some (e, q))
    (hg : ∀ t, g t = if t = s then none else f t) : (r.erase e).Lists g := by
  constructor
  · exact nodup_keys_erase h.nodup e
  · intro t e' q' ht
    rw [hg] at ht
    split at ht
    · simp at ht
    · rename_i hts
      have he : e' ≠ e := by
        rintro rfl
        exact hts (h.unique t s e' q' q ht hs)
      rw [get?_erase, if_neg he]
      exact h.registered t e' q' ht
  · intro e' q' hget
    rw [get?_erase] at hget
    split at hget
    · simp at hget
    · rename_i he
      obtain ⟨t, ht⟩ := h.held e' q' hget
      refine ⟨t, ?_⟩
      rw [hg, if_neg, ht]
      rintro rfl
      rw [hs] at ht
      cases ht
      exact he rfl
  · intro t u e' k k' ht hu
    rw [hg] at ht hu
    split at ht
    · simp at ht
    split at hu
    · simp at hu
    exact h.unique t u e' k k' ht hu

end Lists
end Registry

/-- A port of those handed out to who asks for none in particular. -/
def HandedOut (p : UInt32) : Prop := firstPort ≤ p ∧ p ≠ anyPort

theorem handedOut_firstPort : HandedOut firstPort := by
  constructor <;> decide

theorem handedOut_iff (p : UInt32) : HandedOut p ↔ 40000 ≤ p.toNat ∧ p.toNat < 4294967295 := by
  have hp := p.toNat_lt
  have h1 : firstPort ≤ p ↔ 40000 ≤ p.toNat := UInt32.le_iff_toNat_le
  have h2 : p = anyPort ↔ p.toNat = 4294967295 := UInt32.toNat_inj.symm
  rw [HandedOut, h1, Ne, h2]
  omega

/-- The next port in the cycle, as a number. -/
theorem toNat_nextPort {p : UInt32} (h : HandedOut p) :
    (nextPort p).toNat = if p.toNat + 1 = 4294967295 then 40000 else p.toNat + 1 := by
  rw [handedOut_iff] at h
  have h1 : (p + 1).toNat = p.toNat + 1 := by
    rw [UInt32.toNat_add]
    exact Nat.mod_eq_of_lt (by simp; omega)
  have h2 : p + 1 = anyPort ↔ p.toNat + 1 = 4294967295 := by
    rw [← UInt32.toNat_inj, h1]; rfl
  unfold nextPort
  by_cases hn : p.toNat + 1 = 4294967295
  · rw [if_pos (h2.mpr hn), if_pos hn]; rfl
  · rw [if_neg (mt h2.mp hn), if_neg hn, h1]

theorem handedOut_nextPort {p : UInt32} (h : HandedOut p) : HandedOut (nextPort p) := by
  have hn := toNat_nextPort h
  rw [handedOut_iff] at h ⊢
  split at hn <;> omega

theorem handedOut_of_freePort? {r : Registry} {cid p q : UInt32} {k : Nat}
    (h : freePort? r cid k p = some q) (hp : HandedOut p) : HandedOut q := by
  induction k generalizing p with
  | zero => simp [freePort?] at h
  | succ k ih =>
    unfold freePort? at h
    split at h
    · exact ih h (handedOut_nextPort hp)
    · simp only [Option.some.injEq] at h
      exact h ▸ hp

/-- A port that is handed out is free and leaves the counter at its successor. -/
theorem of_allocate?_eq_some {r : Registry} {cid counter port next : UInt32}
    (h : allocate? r cid counter = some (port, next)) :
    r.has ⟨cid, port⟩ = false ∧ next = nextPort port ∧ (HandedOut counter → HandedOut port) := by
  obtain ⟨p, hp, he⟩ := Option.map_eq_some_iff.mp h
  cases he
  exact ⟨not_has_of_freePort? hp, rfl, handedOut_of_freePort? hp⟩

end Handoff.Loopback
