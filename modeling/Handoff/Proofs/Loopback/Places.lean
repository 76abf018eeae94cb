import Mathlib.Data.List.Nodup

/-!
Lists of sockets and queues are changed one place at a time. What is selected from such a list
then changes, up to order, by what the old and the new value at that place give.
-/
namespace Handoff.Loopback

variable {α β : Type} {l : List α} {i j : Nat} {a : α}

theorem perm_flatMap_set (f : α → List β) (h : l[i]? = some a) (b : α) :
    (f a ++ (l.set i b).flatMap f).Perm (f b ++ l.flatMap f) := by
  induction l generalizing i with
  | nil => simp at h
  | cons x l ih =>
    cases i with
    | zero =>
      have hx : x = a := by simpa using h
      subst hx
      rw [List.set_cons_zero, List.flatMap_cons, List.flatMap_cons]
      exact List.perm_append_comm_assoc _ _ _
    | succ i =>
      rw [List.set_cons_succ, List.flatMap_cons, List.flatMap_cons]
      have hi := (ih (by simpa using h)).append_left (f x)
      exact (List.perm_append_comm_assoc _ _ _).trans
        (hi.trans (List.perm_append_comm_assoc _ _ _))

theorem perm_filterMap_set (f : α → Option β) (h : l[i]? = some a) (b : α) :
    ((f a).toList ++ (l.set i b).filterMap f).Perm ((f b).toList ++ l.filterMap f) := by
  rw [List.filterMap_eq_flatMap_toList, List.filterMap_eq_flatMap_toList]
  exact perm_flatMap_set (fun x => (f x).toList) h b

theorem filterMap_set_of_eq {f : α → Option β} {b : α} (h : l[i]? = some a) (hf : f b = f a) :
    (l.set i b).filterMap f = l.filterMap f := by
  induction l generalizing i with
  | nil => simp at h
  | cons x l ih =>
    cases i with
    | zero =>
      have hx : x = a := by simpa using h
      subst hx
      simp [List.filterMap_cons, hf]
    | succ i =>
      simp [List.filterMap_cons, ih (by simpa using h)]

theorem set_append_length (l : List α) (a b : α) : (l ++ [a]).set l.length b = l ++ [b] := by
  rw [List.set_append_right _ _ (Nat.le_refl _), Nat.sub_self, List.set_cons_zero]

/-- Where a selection has no duplicates, one place at most gives a value. -/
theorem place_unique {f : α → Option β} (hn : (l.filterMap f).Nodup) {b : α} {x : β}
    (hi : l[i]? = some a) (hj : l[j]? = some b) (ha : f a = some x) (hb : f b = some x) :
    i = j := by
  have hp := List.pairwise_filterMap.mp hn
  rw [List.pairwise_iff_getElem] at hp
  obtain ⟨li, rfl⟩ := List.getElem?_eq_some_iff.mp hi
  obtain ⟨lj, rfl⟩ := List.getElem?_eq_some_iff.mp hj
  rcases Nat.lt_trichotomy i j with hl | he | hl
  · exact absurd rfl (hp i j li lj hl x ha x hb)
  · exact he
  · exact absurd rfl (hp j i lj li hl x hb x ha)

/-- Where lists in places have no duplicates together, an element is in one place at most. -/
theorem place_unique_flatMap {f : α → List β} (hn : (l.flatMap f).Nodup) {b : α} {x : β}
    (hi : l[i]? = some a) (hj : l[j]? = some b) (ha : x ∈ f a) (hb : x ∈ f b) : i = j := by
  have hp := (List.nodup_flatMap.mp hn).2
  rw [List.pairwise_iff_getElem] at hp
  obtain ⟨li, rfl⟩ := List.getElem?_eq_some_iff.mp hi
  obtain ⟨lj, rfl⟩ := List.getElem?_eq_some_iff.mp hj
  rcases Nat.lt_trichotomy i j with hl | he | hl
  · exact absurd hb (hp i j li lj hl ha)
  · exact he
  · exact absurd ha (hp j i lj li hl hb)

end Handoff.Loopback
