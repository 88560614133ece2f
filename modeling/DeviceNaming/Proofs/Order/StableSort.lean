import DeviceNaming.Order.StableSort

/-!
# Stable sorting and filters

Sorting and then keeping some elements gives the same list as keeping them and then sorting
(`stableSort_filter`).
-/

namespace DeviceNaming

variable {α : Type} {le : α → α → Bool}

theorem insertSorted_of_forall_le {x : α} {ys : List α} (h : ∀ y ∈ ys, le x y = true) :
    insertSorted le x ys = x :: ys := by
  cases ys with
  | nil => rfl
  | cons y ys => rw [insertSorted, if_pos (h y List.mem_cons_self)]

theorem insertSorted_filter (trans : ∀ a b c, le a b → le b c → le a c) (p : α → Bool) (x : α)
    {ys : List α} (h : ys.Pairwise fun a b => le a b) :
    (insertSorted le x ys).filter p =
      if p x then insertSorted le x (ys.filter p) else ys.filter p := by
  induction ys with
  | nil => by_cases hx : p x <;> simp [insertSorted, hx]
  | cons y ys ih =>
    obtain ⟨hy, hys⟩ := List.pairwise_cons.1 h
    by_cases hxy : le x y = true
    · have hall : ∀ z ∈ (y :: ys).filter p, le x z = true := by
        intro z hz
        rcases List.mem_cons.1 (List.mem_filter.1 hz).1 with rfl | hz
        · exact hxy
        · exact trans _ _ _ hxy (hy z hz)
      rw [insertSorted, if_pos hxy, insertSorted_of_forall_le hall, List.filter_cons]
    · rw [insertSorted, if_neg hxy, List.filter_cons, ih hys, List.filter_cons]
      by_cases hx : p x <;> by_cases hpy : p y <;> simp [hx, hpy, insertSorted, hxy]

/-- Sorting commutes with keeping the elements that pass a test. -/
theorem stableSort_filter (total : ∀ a b, le a b ∨ le b a) (trans : ∀ a b c, le a b → le b c → le a c)
    (p : α → Bool) (xs : List α) : (stableSort le xs).filter p = stableSort le (xs.filter p) := by
  induction xs with
  | nil => rfl
  | cons x xs ih =>
    rw [stableSort, insertSorted_filter trans p x (pairwise_stableSort total trans xs), ih,
      List.filter_cons]
    split <;> rfl

theorem length_stableSort (xs : List α) : (stableSort le xs).length = xs.length :=
  (perm_stableSort le xs).length_eq

end DeviceNaming
