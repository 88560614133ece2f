import DeviceNaming.Area.Registry

/-!
# Areas within areas

`AreaRegistry.hierarchy` lists an area and all that lies below it, each area once and in preorder, also
where areas lie in each other. The walk keeps the areas still to be entered and those entered; it ends
since either an area with areas below it is entered or there is one area less to enter.
-/

namespace DeviceNaming

namespace Postings

/-- The keys that were not visited. -/
def unvisited (keys visited : List String) : List String := keys.filter fun k => k ∉ visited

theorem unvisited_cons (keys : List String) (x : String) (visited : List String) :
    unvisited keys (x :: visited) = (unvisited keys visited).filter fun k => k ≠ x := by
  simp [unvisited, List.filter_filter, not_or]

theorem unvisited_cons_le (keys : List String) (x : String) (visited : List String) :
    (unvisited keys (x :: visited)).length ≤ (unvisited keys visited).length := by
  rw [unvisited_cons]
  exact List.length_filter_le ..

theorem unvisited_cons_lt {keys : List String} {x : String} {visited : List String}
    (hx : x ∈ keys) (hv : x ∉ visited) :
    (unvisited keys (x :: visited)).length < (unvisited keys visited).length := by
  rw [unvisited_cons, List.length_filter_lt_length_iff_exists]
  exact ⟨x, by simp [unvisited, hx, hv], by simp⟩

theorem ids_eq_nil_of_not_mem (p : Postings) {x : String} (hx : x ∉ p.keys) : p.ids x = [] := by
  have h : p.find? x = none := by
    rw [← Option.not_isSome_iff_eq_none, Roster.isSome_find?]
    exact hx
  simp [ids, h]

/-- What is met on a walk that has `stack` to enter and has entered `visited`: a key, then all below it. -/
def preorder (p : Postings) : (stack visited : List String) → List String
  | [], _ => []
  | x :: stack, visited =>
      if x ∈ visited then preorder p stack visited
      else x :: preorder p (p.ids x ++ stack) (x :: visited)
termination_by stack visited => ((unvisited p.keys visited).length, stack.length)
decreasing_by
  · apply Prod.Lex.right
    simp
  · rename_i hv
    by_cases hx : x ∈ p.keys
    · exact Prod.Lex.left _ _ (unvisited_cons_lt hx hv)
    · rw [p.ids_eq_nil_of_not_mem hx]
      rcases Nat.lt_or_eq_of_le (unvisited_cons_le p.keys x visited) with h | h
      · exact Prod.Lex.left _ _ h
      · rw [h]
        apply Prod.Lex.right
        simp

end Postings

namespace AreaRegistry

/-- The areas directly below an area. -/
def childAreas (g : AreaRegistry) (areaId : String) : List String := g.children.ids areaId

/-- An area and all areas below it. -/
def hierarchy (g : AreaRegistry) (areaId : String) : List String := g.children.preorder [areaId] []

/-- The ids that `areaOf` places in an area, or below it as well; without placements all ids are kept. -/
def filterIds (g : AreaRegistry) (ids : List String) (areaId : String) (below : Bool)
    (areaOf : Option (String → Option String)) : List String :=
  match areaOf with
  | none => ids
  | some areaOf =>
      let targets := if below then g.hierarchy areaId else [areaId]
      ids.filter fun id =>
        match areaOf id with
        | some a => decide (a ∈ targets)
        | none => false

end AreaRegistry

end DeviceNaming
