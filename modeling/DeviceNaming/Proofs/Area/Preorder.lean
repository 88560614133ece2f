import DeviceNaming.Proofs.Area.Hierarchy
import DeviceNaming.Proofs.Area.InStep
import Mathlib.Logic.Function.Iterate

/-!
# The walk below an area

The walk of `AreaRegistry.hierarchy` is a loop that keeps the areas still to be entered (`Postings.Walk`), and what it
finds is the preorder that a recursion over the areas below finds (`Postings.descend`). The loop needs no more rounds
than there are areas, and one: each round leaves one area less to enter, since an area waits below one parent only and is
put in front of the others once, when this parent is entered (`AreaRegistry.waiting`).

After any registrations the walk finds exactly what lies in an area, which the areas and their parents alone decide:
`AreaRegistry.hierarchy_expands`.
-/

namespace DeviceNaming

attribute [local irreducible] Text.normalize Text.trimmed

namespace Postings

variable {p : Postings} {stack visited : List String}

/-! ## The recursion -/

theorem length_unvisited_append_le (keys below visited : List String) :
    (unvisited keys (below ++ visited)).length ≤ (unvisited keys visited).length := by
  induction below with
  | nil => exact Nat.le_refl _
  | cons x below ih => exact Nat.le_trans (unvisited_cons_le keys x _) ih

/-- The keys of a list in turn, each followed by all below it; what was met before is passed over. -/
def descend (p : Postings) : (keys met : List String) → List String
  | [], _ => []
  | x :: keys, met =>
      if x ∈ met then descend p keys met
      else
        let below := descend p (p.ids x) (x :: met)
        x :: (below ++ descend p keys (below ++ x :: met))
termination_by keys met => ((unvisited p.keys met).length, keys.length)
decreasing_by
  · exact Prod.Lex.right _ (Nat.lt_succ_self _)
  · rename_i hmet
    by_cases hx : x ∈ p.keys
    · exact Prod.Lex.left _ _ (unvisited_cons_lt hx hmet)
    · rw [p.ids_eq_nil_of_not_mem hx]
      exact Prod.Lex.right' _ (unvisited_cons_le ..) (Nat.succ_pos _)
  · -- what was met below only leaves less to meet
    have hle := Nat.le_trans (length_unvisited_append_le p.keys below (x :: met)) (unvisited_cons_le p.keys x met)
    exact Prod.Lex.right' _ hle (Nat.lt_succ_self _)

/-- The order in which keys were entered does not matter. -/
theorem preorder_congr {visited' : List String} (h : ∀ x, x ∈ visited ↔ x ∈ visited') :
    p.preorder stack visited = p.preorder stack visited' := by
  fun_induction preorder p stack visited generalizing visited' with
  | case1 => rw [preorder]
  | case2 x stack visited hx ih =>
    rw [preorder, if_pos ((h x).1 hx)]
    exact ih h
  | case3 x stack visited hx ih =>
    rw [preorder, if_neg (mt (h x).2 hx)]
    exact congrArg _ (ih fun y => by simp only [List.mem_cons, h])

/-- The loop goes through the first keys of its stack as the recursion does, and then through the others. -/
theorem preorder_append (keys met stack : List String) :
    p.preorder (keys ++ stack) met = p.descend keys met ++ p.preorder stack (p.descend keys met ++ met) := by
  fun_induction descend p keys met generalizing stack with
  | case1 => rfl
  | case2 x keys met hx ih =>
    rw [List.cons_append, preorder, if_pos hx]
    exact ih stack
  | case3 x keys met hx below ihbelow ihkeys =>
    have hmet : p.preorder stack (p.descend keys (below ++ x :: met) ++ (below ++ x :: met)) =
        p.preorder stack (x :: (below ++ p.descend keys (below ++ x :: met)) ++ met) := by
      refine preorder_congr fun y => ?_
      simp only [List.mem_append, List.mem_cons]
      tauto
    calc p.preorder (x :: keys ++ stack) met
        = x :: p.preorder (p.ids x ++ (keys ++ stack)) (x :: met) := by
          rw [List.cons_append, preorder, if_neg hx]
      _ = x :: (below ++ (p.descend keys (below ++ x :: met) ++
            p.preorder stack (p.descend keys (below ++ x :: met) ++ (below ++ x :: met)))) := by
          rw [ihbelow, ihkeys]
      _ = x :: (below ++ p.descend keys (below ++ x :: met)) ++
            p.preorder stack (x :: (below ++ p.descend keys (below ++ x :: met)) ++ met) := by
          rw [hmet]
          simp only [List.cons_append, List.append_assoc]

/-- The loop finds what the recursion finds. -/
theorem preorder_eq_descend (keys : List String) : p.preorder keys [] = p.descend keys [] := by
  have happend := preorder_append (p := p) keys [] []
  rwa [List.append_nil, preorder, List.append_nil] at happend

theorem nodup_preorder (p : Postings) (stack visited : List String) :
    (p.preorder stack visited).Nodup ∧ ∀ x ∈ p.preorder stack visited, x ∉ visited := by
  fun_induction preorder p stack visited with
  | case1 => exact ⟨List.nodup_nil, fun x hx => absurd hx List.not_mem_nil⟩
  | case2 x stack visited hx ih => exact ih
  | case3 x stack visited hx ih =>
    obtain ⟨hnodup, hnew⟩ := ih
    refine ⟨List.nodup_cons.2 ⟨fun h => hnew x h List.mem_cons_self, hnodup⟩, fun y hy => ?_⟩
    rcases List.mem_cons.1 hy with rfl | hy
    · exact hx
    · exact fun h => hnew y hy (List.mem_cons_of_mem _ h)

/-! ## The loop -/

/-- A walk under way: the keys to enter, the next one first, and those that were entered, in order. -/
structure Walk where
  toEnter : List String
  entered : List String
deriving DecidableEq, Repr

/-- A round of the loop: the next key is entered and the keys below it come next, unless it was entered before. -/
def Walk.round (p : Postings) (w : Walk) : Walk :=
  match w.toEnter with
  | [] => w
  | x :: rest =>
      if x ∈ w.entered then { w with toEnter := rest } else ⟨p.ids x ++ rest, w.entered ++ [x]⟩

end Postings

namespace AreaRegistry

open Postings

variable {g g' : AreaRegistry}

/-- The number of areas whose parent was not entered. -/
def waiting (g : AreaRegistry) (entered : List String) : Nat :=
  g.areas.values.countP fun a => a.parentId.any fun parent => parent ∉ entered

theorem waiting_le (g : AreaRegistry) (entered : List String) : g.waiting entered ≤ g.areas.size :=
  g.areas.length_values ▸ List.countP_le_length

theorem InStep.length_childAreas (H : g.InStep) (id : String) :
    (g.childAreas id).length = g.areas.values.countP fun a => a.parentId = some id := by
  have hids : ((g.areas.values.filter fun a => a.parentId = some id).map (·.areaId)).Nodup := by
    have hkeys : g.areas.values.map (·.areaId) = g.areas.keys := Roster.map_values H.nodup H.own
    exact (hkeys ▸ H.nodup).sublist (List.filter_sublist.map _)
  have hperm : (g.childAreas id).Perm ((g.areas.values.filter fun a => a.parentId = some id).map (·.areaId)) := by
    refine (List.perm_ext_iff_of_nodup (H.proper_children.nodup_ids id) hids).2 fun child => ?_
    rw [H.parented, List.mem_map]
    constructor
    · rintro ⟨a, ha, hparent⟩
      exact ⟨a, List.mem_filter.2 ⟨Roster.mem_values_of_find? ha, decide_eq_true hparent⟩, H.own ha⟩
    · rintro ⟨a, ha, rfl⟩
      obtain ⟨ha, hparent⟩ := List.mem_filter.1 ha
      exact ⟨a, H.find?_areaId ha, of_decide_eq_true hparent⟩
  rw [hperm.length_eq, List.length_map, List.countP_eq_length_filter]

/-- Entering an area ends the waiting of the areas below it. -/
theorem InStep.waiting_concat (H : g.InStep) {entered : List String} {id : String} (hid : id ∉ entered) :
    g.waiting (entered ++ [id]) + (g.childAreas id).length = g.waiting entered := by
  rw [H.length_childAreas]
  unfold waiting
  induction g.areas.values with
  | nil => rfl
  | cons a areas ih =>
    rw [List.countP_cons, List.countP_cons, List.countP_cons, ← ih]
    cases a.parentId with
    | none => simp
    | some parent =>
      by_cases hparent : parent = id
      · subst hparent
        simp [hid]
        omega
      · simp [hparent]
        omega

/-- Each round leaves one area less to enter or to wait. -/
theorem InStep.rounds_eq (H : g.InStep) (n : Nat) {stack entered : List String}
    (hn : stack.length + g.waiting entered ≤ n) :
    (Walk.round g.children)^[n] ⟨stack, entered⟩ = ⟨[], entered ++ g.children.preorder stack entered⟩ := by
  induction n generalizing stack entered with
  | zero =>
    have hnil : stack = [] := List.length_eq_zero_iff.1 (by omega)
    rw [hnil, preorder, List.append_nil]
    rfl
  | succ n ih =>
    cases stack with
    | nil =>
      rw [preorder, List.append_nil]
      exact Function.iterate_fixed rfl _
    | cons x rest =>
      rw [List.length_cons] at hn
      rw [Function.iterate_succ_apply, Walk.round, preorder]
      dsimp only
      by_cases hx : x ∈ entered
      · rw [if_pos hx, if_pos hx]
        exact ih (by omega)
      · have hwait := H.waiting_concat hx
        have hlength : (g.children.ids x ++ rest).length + g.waiting (entered ++ [x]) ≤ n := by
          rw [List.length_append]
          unfold childAreas at hwait
          omega
        have hentered : g.children.preorder (g.children.ids x ++ rest) (entered ++ [x]) =
            g.children.preorder (g.children.ids x ++ rest) (x :: entered) :=
          preorder_congr fun y => by simp [or_comm]
        rw [if_neg hx, if_neg hx, ih hlength, hentered, List.append_assoc, List.singleton_append]

/-! ## What lies in an area -/

/-- The registered areas, each with its parent. -/
def lineage (g : AreaRegistry) : List (String × Option String) :=
  g.areas.values.map fun a => (a.areaId, a.parentId)

theorem Filed.mem_lineage_iff (H : g.Filed) {id : String} {parent : Option String} :
    (id, parent) ∈ g.lineage ↔ ∃ a, g.areas.find? id = some a ∧ a.parentId = parent := by
  rw [lineage, List.mem_map]
  constructor
  · rintro ⟨a, ha, heq⟩
    cases heq
    exact ⟨a, H.find?_areaId ha, rfl⟩
  · rintro ⟨a, ha, rfl⟩
    exact ⟨a, Roster.mem_values_of_find? ha, by rw [H.own ha]⟩

/-- What lies in an area depends on the registered areas and their parents alone. -/
theorem LiesIn.of_lineage (H : g.Filed) (H' : g'.Filed) (h : ∀ pair ∈ g.lineage, pair ∈ g'.lineage)
    {top id : String} (hid : g.LiesIn top id) : g'.LiesIn top id := by
  induction hid with
  | self => exact .self
  | under ha hparent _ ih =>
    obtain ⟨a', ha', hparent'⟩ := H'.mem_lineage_iff.1 (h _ (H.mem_lineage_iff.2 ⟨_, ha, hparent⟩))
    exact .under ha' hparent' ih

/-- The list is what lies in an area: the area itself and what leads to it, each area once, in the order of the
recursion, found by the loop in as many rounds as there are areas, and one. -/
structure Expands (g : AreaRegistry) (top : String) (found : List String) : Prop where
  walked : (Walk.round g.children)^[g.areas.size + 1] ⟨[top], []⟩ = ⟨[], found⟩
  descended : found = g.children.descend [top] []
  first : found.head? = some top
  distinct : found.Nodup
  mem_iff : ∀ id, id ∈ found ↔ g.LiesIn top id

theorem Expands.eq_of_walked {top : String} {found entered : List String} (h : g.Expands top found)
    (hwalk : (Walk.round g.children)^[g.areas.size + 1] ⟨[top], []⟩ = ⟨[], entered⟩) : found = entered :=
  congrArg Walk.entered (h.walked.symm.trans hwalk)

theorem InStep.expands (H : g.InStep) (top : String) : g.Expands top (g.hierarchy top) where
  walked := H.rounds_eq (g.areas.size + 1) (by
    have hwait := g.waiting_le []
    rw [List.length_singleton]
    omega)
  descended := preorder_eq_descend [top]
  first := by
    rw [hierarchy, preorder, if_neg List.not_mem_nil]
    rfl
  distinct := (nodup_preorder ..).1
  mem_iff id := H.parented.mem_hierarchy_iff

/-- After any changes, what is found below an area is exactly what lies in it. What this is depends on nothing but the
registered areas and their parents: neither on the order of the registrations nor on what was registered before. -/
theorem hierarchy_expands (e : Embedder) (threshold : Binary32) (changes : List (AreaChange × Shared)) :
    (∀ top, (AreaChange.applyEach e changes (.empty threshold)).Expands top
      ((AreaChange.applyEach e changes (.empty threshold)).hierarchy top)) ∧
    ∀ (e' : Embedder) (threshold' : Binary32) (changes' : List (AreaChange × Shared)),
      (∀ pair, pair ∈ (AreaChange.applyEach e changes (.empty threshold)).lineage ↔
        pair ∈ (AreaChange.applyEach e' changes' (.empty threshold')).lineage) →
      ∀ top id, id ∈ (AreaChange.applyEach e changes (.empty threshold)).hierarchy top ↔
        id ∈ (AreaChange.applyEach e' changes' (.empty threshold')).hierarchy top := by
  have H := (changed_inStep e threshold changes).1
  refine ⟨H.expands, fun e' threshold' changes' hlineage top id => ?_⟩
  have H' := (changed_inStep e' threshold' changes').1
  rw [H.parented.mem_hierarchy_iff, H'.parented.mem_hierarchy_iff]
  exact ⟨.of_lineage H.toFiled H'.toFiled fun pair => (hlineage pair).1,
    .of_lineage H'.toFiled H.toFiled fun pair => (hlineage pair).2⟩

/-- A house and an annex that lie in each other, with a kitchen in the house and a pantry in the kitchen. -/
def entwined : List AreaChange := [
  .add (.withParent (.new "kitchen" "Kitchen") "house" none),
  .add (.withParent (.new "house" "House") "annex" none),
  .add (.withParent (.new "pantry" "Pantry") "kitchen" none),
  .add (.withParent (.new "annex" "Annex") "house" none)]

/-- The areas of `entwined` in another order, after a pantry that lay in a cellar and an attic that was cleared away. -/
def entwinedAnew : List AreaChange := [
  .add (.withParent (.new "attic" "Attic") "house" none),
  .clear,
  .add (.withParent (.new "pantry" "Pantry") "cellar" none),
  .add (.withParent (.new "annex" "Annex") "house" none),
  .add (.withParent (.new "house" "House") "annex" none),
  .add (.withParent (.new "pantry" "Pantry") "kitchen" none),
  .add (.withParent (.new "kitchen" "Kitchen") "house" none)]

/-- Each history lists the house and what lies in it in an order of its own, and both list the same areas. -/
theorem hierarchy_expands_entwined :
    let s : Shared := .start Settings.default.embeddingCache
    let g := AreaChange.applyEach .disabled (entwined.map (·, s)) (.empty .zero)
    let g' := AreaChange.applyEach .disabled (entwinedAnew.map (·, s)) (.empty .half)
    g.Expands "house" ["house", "kitchen", "pantry", "annex"] ∧
      g'.Expands "house" ["house", "annex", "kitchen", "pantry"] ∧
      ∀ top id, id ∈ g.hierarchy top ↔ id ∈ g'.hierarchy top := by
  intro s g g'
  have hlineage : g.lineage.Perm g'.lineage := by decide +kernel
  have hwalk : (Walk.round g.children)^[g.areas.size + 1] ⟨["house"], []⟩ =
      ⟨[], ["house", "kitchen", "pantry", "annex"]⟩ := by decide +kernel
  have hwalkAnew : (Walk.round g'.children)^[g'.areas.size + 1] ⟨["house"], []⟩ =
      ⟨[], ["house", "annex", "kitchen", "pantry"]⟩ := by decide +kernel
  obtain ⟨hexpands, hsame⟩ := hierarchy_expands .disabled .zero (entwined.map (·, s))
  obtain ⟨hanew, -⟩ := hierarchy_expands .disabled .half (entwinedAnew.map (·, s))
  refine ⟨?_, ?_, hsame .disabled .half (entwinedAnew.map (·, s)) fun _ => hlineage.mem_iff⟩
  · exact (hexpands "house").eq_of_walked hwalk ▸ hexpands "house"
  · exact (hanew "house").eq_of_walked hwalkAnew ▸ hanew "house"

end AreaRegistry
end DeviceNaming
