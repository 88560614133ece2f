import DeviceNaming.Proofs.Area.Registry

/-!
# What lies below an area

The walk of `AreaRegistry.hierarchy` meets exactly the areas that lie in the given one (`LiesIn`), through any
number of registered areas and also where areas lie in each other: `AreaRegistry.Parented.mem_hierarchy_iff`.
-/

namespace DeviceNaming

namespace Postings

variable {p : Postings} {stack visited : List String}

/-- The walk stays within what is closed downwards. -/
theorem preorder_closed {P : String → Prop} (hP : ∀ {x y}, P x → y ∈ p.ids x → P y)
    (hstack : ∀ x ∈ stack, P x) : ∀ x ∈ p.preorder stack visited, P x := by
  fun_induction preorder p stack visited with
  | case1 => nofun
  | case2 x stack visited hx ih => exact ih fun y hy => hstack y (List.mem_cons_of_mem _ hy)
  | case3 x stack visited hx ih =>
    have hPx := hstack x List.mem_cons_self
    intro y hy
    rcases List.mem_cons.1 hy with rfl | hy
    · exact hPx
    · refine ih (fun z hz => ?_) y hy
      rcases List.mem_append.1 hz with hz | hz
      · exact hP hPx hz
      · exact hstack z (List.mem_cons_of_mem _ hz)

/-- The walk enters all that it has to enter. -/
theorem mem_preorder_of_mem_stack {x : String} (hx : x ∈ stack) :
    x ∈ visited ∨ x ∈ p.preorder stack visited := by
  fun_induction preorder p stack visited with
  | case1 => cases hx
  | case2 y stack visited hy ih =>
    rcases List.mem_cons.1 hx with rfl | hx
    · exact .inl hy
    · exact ih hx
  | case3 y stack visited hy ih =>
    rcases List.mem_cons.1 hx with rfl | hx
    · exact .inr List.mem_cons_self
    · rcases ih (List.mem_append_right _ hx) with h | h
      · rcases List.mem_cons.1 h with rfl | h
        · exact .inr List.mem_cons_self
        · exact .inl h
      · exact .inr (List.mem_cons_of_mem _ h)

/-- The walk goes on below all that it meets. -/
theorem mem_preorder_of_mem_ids {x y : String} (hx : x ∈ p.preorder stack visited) (hy : y ∈ p.ids x) :
    y ∈ visited ∨ y ∈ p.preorder stack visited := by
  fun_induction preorder p stack visited with
  | case1 => cases hx
  | case2 z stack visited hz ih => exact ih hx
  | case3 z stack visited hz ih =>
    have hbelow : y ∈ z :: visited ∨ y ∈ p.preorder (p.ids z ++ stack) (z :: visited) := by
      rcases List.mem_cons.1 hx with rfl | hx
      · exact mem_preorder_of_mem_stack (List.mem_append_left _ hy)
      · exact ih hx
    rcases hbelow with h | h
    · rcases List.mem_cons.1 h with rfl | h
      · exact .inr List.mem_cons_self
      · exact .inl h
    · exact .inr (List.mem_cons_of_mem _ h)

end Postings

namespace AreaRegistry

/-- An area is another one, or leads to it through the parents of registered areas. -/
inductive LiesIn (g : AreaRegistry) (top : String) : String → Prop
  | self : LiesIn g top top
  | under {id parent : String} {a : Area} : g.areas.find? id = some a → a.parentId = some parent →
      LiesIn g top parent → LiesIn g top id

variable {g : AreaRegistry}

/-- The walk below an area meets what lies in it. -/
theorem Parented.mem_hierarchy_iff (H : g.Parented) {top id : String} :
    id ∈ g.hierarchy top ↔ g.LiesIn top id := by
  constructor
  · refine fun h => Postings.preorder_closed (P := g.LiesIn top) ?_ ?_ id h
    · intro x y hx hy
      obtain ⟨a, ha, hparent⟩ := (H _ _).1 hy
      exact .under ha hparent hx
    · intro x hx
      cases List.mem_singleton.1 hx
      exact .self
  · intro h
    induction h with
    | self => exact (Postings.mem_preorder_of_mem_stack List.mem_cons_self).resolve_left List.not_mem_nil
    | under ha hparent _ ih =>
      have hchild := (H _ _).2 ⟨_, ha, hparent⟩
      exact (Postings.mem_preorder_of_mem_ids ih hchild).resolve_left List.not_mem_nil

/-- Without areas below it, nothing else lies in an area. -/
theorem Parented.liesIn_iff_eq (H : g.Parented) {top : String} (h : g.childAreas top = []) {id : String} :
    g.LiesIn top id ↔ id = top := by
  constructor
  · intro hid
    induction hid with
    | self => rfl
    | under ha hparent _ ih =>
      subst ih
      have hchild := (H _ _).2 ⟨_, ha, hparent⟩
      rw [childAreas] at h
      rw [h] at hchild
      cases hchild
  · rintro rfl
    exact .self

end AreaRegistry

end DeviceNaming
