import Handoff.Json.Value
import Mathlib.Data.List.Nodup

/-!
Members by their names. Where no object has a name twice, the order of its members does not matter:
what is found in a value is also found once its members are sorted (`at?_sorted`).
-/
namespace Handoff.Json

/-- The value of the member of an object that has a name. -/
def member? (v : Json) (name : String) : Option Json :=
  match v with
  | .object members => members.lookup name
  | _ => none

/-- What is found by going from member to member. -/
def at? (v : Json) : List String → Option Json
  | [] => some v
  | name :: path => (v.member? name).bind fun w => w.at? path

mutual

/-- No object in a value has two members of one name. -/
def Distinct : Json → Prop
  | .list items => DistinctItems items
  | .object members => (members.map Prod.fst).Nodup ∧ DistinctMembers members
  | _ => True

def DistinctItems : List Json → Prop
  | [] => True
  | v :: vs => v.Distinct ∧ DistinctItems vs

def DistinctMembers : List (String × Json) → Prop
  | [] => True
  | m :: ms => m.2.Distinct ∧ DistinctMembers ms

end

variable {members members' : List (String × Json)} {name : String} {v w : Json}

theorem distinctMembers_iff : DistinctMembers members ↔ ∀ m ∈ members, m.2.Distinct := by
  induction members with
  | nil => simp [DistinctMembers]
  | cons m ms ih => rw [DistinctMembers, ih, List.forall_mem_cons]

theorem sortedMembers_eq (members : List (String × Json)) :
    sortedMembers members = members.map fun m => (m.1, m.2.sorted) := by
  induction members with
  | nil => rfl
  | cons m ms ih => rw [sortedMembers, ih, List.map_cons]

/-! ### Lookups -/

/-- Where names come once, whatever stands under a name is found there. -/
theorem lookup_eq_some_iff (h : (members.map Prod.fst).Nodup) :
    members.lookup name = some v ↔ (name, v) ∈ members := by
  induction members with
  | nil => simp
  | cons m ms ih =>
    obtain ⟨k, u⟩ := m
    rw [List.map_cons, List.nodup_cons] at h
    rw [List.lookup_cons, List.mem_cons]
    by_cases hk : name = k
    · subst hk
      have hnot : (name, v) ∉ ms := fun hm => h.1 (List.mem_map.mpr ⟨_, hm, rfl⟩)
      simp [hnot, eq_comm]
    · have hbeq : (name == k) = false := beq_eq_false_iff_ne.mpr hk
      rw [hbeq]
      simp [hk, ih h.2]

theorem lookup_perm (hp : members.Perm members') (h : (members.map Prod.fst).Nodup) :
    members.lookup name = members'.lookup name := by
  have h' : (members'.map Prod.fst).Nodup := (hp.map Prod.fst).nodup_iff.mp h
  refine Option.ext fun v => ?_
  rw [lookup_eq_some_iff h, lookup_eq_some_iff h', hp.mem_iff]

theorem lookup_map (f : Json → Json) :
    (members.map fun m => (m.1, f m.2)).lookup name = (members.lookup name).map f := by
  induction members with
  | nil => rfl
  | cons m ms ih =>
    rw [List.map_cons, List.lookup_cons, List.lookup_cons, ih]
    cases name == m.1 <;> rfl

/-- A member of a sorted object is a member of the object, sorted. -/
theorem member?_sorted (h : v.Distinct) (name : String) :
    v.sorted.member? name = (v.member? name).map sorted := by
  cases v with
  | object members =>
    have hnames : ((sortedMembers members).map Prod.fst).Nodup := by
      rw [sortedMembers_eq, List.map_map]
      exact h.1
    have hperm := List.mergeSort_perm (sortedMembers members) fun a b => decide (a.1 ≤ b.1)
    calc (Json.object members).sorted.member? name
        = ((sortedMembers members).mergeSort fun a b => decide (a.1 ≤ b.1)).lookup name := rfl
      _ = (sortedMembers members).lookup name := (lookup_perm hperm.symm hnames).symm
      _ = ((Json.object members).member? name).map sorted := by
        rw [sortedMembers_eq]
        exact lookup_map sorted
  | null | bool | number | text | list => rfl

theorem Distinct.member (h : v.Distinct) (hw : v.member? name = some w) : w.Distinct := by
  cases v with
  | object members =>
    have hm : (name, w) ∈ members := (lookup_eq_some_iff h.1).mp hw
    exact distinctMembers_iff.mp h.2 _ hm
  | null | bool | number | text | list => simp [member?] at hw

/-- Whatever is found in a value is found in the sorted value, sorted. -/
theorem at?_sorted (h : v.Distinct) (path : List String) :
    v.sorted.at? path = (v.at? path).map sorted := by
  induction path generalizing v with
  | nil => rfl
  | cons name path ih =>
    rw [at?, at?, member?_sorted h]
    cases hw : v.member? name with
    | none => rfl
    | some w => exact ih (h.member hw)

theorem at?_cons (hw : v.member? name = some w) (path : List String) :
    v.at? (name :: path) = w.at? path := by
  rw [at?, hw, Option.bind_some]

end Handoff.Json
