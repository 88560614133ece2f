/-!
# Stable sorting

`stableSort le` sorts a list by insertion and keeps the order of elements that are equal under `le`.

Main facts: the result is a permutation (`perm_stableSort`), it is in order (`pairwise_stableSort`), and elements
that may all precede each other are met in their former order (`filter_stableSort`).
-/

namespace DeviceNaming

variable {α : Type}

/-- Inserts an element in front of the first one that it may precede. -/
def insertSorted (le : α → α → Bool) (x : α) : List α → List α
  | [] => [x]
  | y :: ys => if le x y then x :: y :: ys else y :: insertSorted le x ys

/-- Sorts a list; elements that may precede each other keep their order. -/
def stableSort (le : α → α → Bool) : List α → List α
  | [] => []
  | x :: xs => insertSorted le x (stableSort le xs)

theorem perm_insertSorted (le : α → α → Bool) (x : α) (ys : List α) :
    (insertSorted le x ys).Perm (x :: ys) := by
  induction ys with
  | nil => exact .refl _
  | cons y ys ih =>
    unfold insertSorted
    split
    · exact .refl _
    · exact (ih.cons y).trans (.swap x y ys)

theorem perm_stableSort (le : α → α → Bool) (xs : List α) : (stableSort le xs).Perm xs := by
  induction xs with
  | nil => exact .refl _
  | cons x xs ih => exact (perm_insertSorted le x _).trans (ih.cons x)

@[simp] theorem mem_stableSort {le : α → α → Bool} {xs : List α} {a : α} :
    a ∈ stableSort le xs ↔ a ∈ xs :=
  (perm_stableSort le xs).mem_iff

theorem pairwise_insertSorted {le : α → α → Bool} (total : ∀ a b, le a b ∨ le b a)
    (trans : ∀ a b c, le a b → le b c → le a c) (x : α) {ys : List α}
    (h : ys.Pairwise fun a b => le a b) : (insertSorted le x ys).Pairwise fun a b => le a b := by
  induction ys with
  | nil => simp [insertSorted]
  | cons y ys ih =>
    have ⟨hy, hys⟩ := List.pairwise_cons.1 h
    unfold insertSorted
    split
    · rename_i hxy
      refine List.pairwise_cons.2 ⟨fun a ha => ?_, h⟩
      rcases List.mem_cons.1 ha with rfl | ha
      · exact hxy
      · exact trans _ _ _ hxy (hy a ha)
    · rename_i hxy
      refine List.pairwise_cons.2 ⟨fun a ha => ?_, ih hys⟩
      rcases List.mem_cons.1 ((perm_insertSorted le x ys).mem_iff.1 ha) with rfl | ha
      · exact (total _ _).resolve_left hxy
      · exact hy a ha

/-- The result is in order. -/
theorem pairwise_stableSort {le : α → α → Bool} (total : ∀ a b, le a b ∨ le b a)
    (trans : ∀ a b c, le a b → le b c → le a c) (xs : List α) :
    (stableSort le xs).Pairwise fun a b => le a b := by
  induction xs with
  | nil => exact .nil
  | cons x xs ih => exact pairwise_insertSorted total trans x ih

theorem filter_insertSorted {le : α → α → Bool} {p : α → Bool}
    (h : ∀ a b, p a → p b → le a b) (x : α) (ys : List α) :
    (insertSorted le x ys).filter p = (x :: ys).filter p := by
  induction ys with
  | nil => rfl
  | cons y ys ih =>
    unfold insertSorted
    split
    · rfl
    · rename_i hxy
      by_cases hx : p x
      · have hy : ¬p y := fun hy => hxy (h x y hx hy)
        simp [hx, hy, ih]
      · rw [List.filter_cons_of_neg hx] at ih ⊢
        rw [List.filter_cons, List.filter_cons, ih]

/-- Elements that may all precede each other keep their order. -/
theorem filter_stableSort {le : α → α → Bool} {p : α → Bool}
    (h : ∀ a b, p a → p b → le a b) (xs : List α) :
    (stableSort le xs).filter p = xs.filter p := by
  induction xs with
  | nil => rfl
  | cons x xs ih => rw [stableSort, filter_insertSorted h, List.filter_cons, List.filter_cons, ih]

end DeviceNaming
