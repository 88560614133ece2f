import DeviceNaming.Settings.Path
import DeviceNaming.Proofs.Order.Roster
import DeviceNaming.Proofs.Text.Normal

/-!
# What merging makes of the values at a path

A layer assigns values at paths (`assignments`), and of the values that are assigned at one path the last one counts
(`latest`). Laying a layer over a tree does that at every path which the layer respects, that is, at which it has no
table and below which it has nothing (`Assignment.Respects`, `lays_layAll`); the induction follows the tables of the
layer. A tree that came about this way is tidy, and a tidy tree is laid over another one entry by entry
(`at?_mergeAll`).
-/

namespace DeviceNaming.Settings.Tree

/-! ## Values under paths -/

/-- The value at the end of a path of names. -/
def at? : List String → Tree → Option Tree
  | [], t => some t
  | n :: path, t => (t.entries.lookup n).bind (at? path)

def isTable : Tree → Bool
  | table _ => true
  | _ => false

/-- A value and the path of names under which a layer has it. -/
abbrev Assignment := List String × Tree

def Assignment.under (names : List String) (a : Assignment) : Assignment := (names ++ a.1, a.2)

mutual

/-- The values in a tree that are not tables with entries, under their paths. -/
def leaves : Tree → List Assignment
  | table (e :: es) => leavesAll (e :: es)
  | t => [([], t)]

/-- The values in the entries of a table that are not tables with entries themselves. -/
def leavesAll : List (String × Tree) → List Assignment
  | [] => []
  | (key, v) :: rest => (leaves v).map (.under [nameOf key]) ++ leavesAll rest

end

/-- The value that is assigned last at a path, or what was there. -/
def latest (path : List String) (as : List Assignment) (before : Option Tree) : Option Tree :=
  as.foldl (fun v a => if a.1 = path then some a.2 else v) before

/-- The assignment is a value at the path, or it leaves the path alone: it is not below the path, and on the way to it
there is only an empty table. -/
def Assignment.Respects (path : List String) (a : Assignment) : Prop :=
  if a.1 = path then a.2.isTable = false else ¬path <+: a.1 ∧ (a.1 <+: path → a.2 = .table [])

/-- What is at the path is a value, and what is on the way to it are tables. -/
def Fits : List String → Tree → Prop
  | [], t => t.isTable = false
  | n :: path, t => ∀ v, t.entries.lookup n = some v → (path ≠ [] → v.isTable = true) ∧ Fits path v

variable {n m : String} {path : List String} {as bs : List Assignment} {a : Assignment} {before : Option Tree}
  {t v w root : Tree} {es : List (String × Tree)}

theorem latest_append : latest path (as ++ bs) before = latest path bs (latest path as before) :=
  List.foldl_append

theorem latest_under_self :
    latest (n :: path) (as.map (.under [n])) before = latest path as before := by
  rw [latest, List.foldl_map, latest]
  simp [Assignment.under]

theorem latest_of_forall_ne (h : ∀ a ∈ as, a.1 ≠ path) : latest path as before = before := by
  induction as generalizing before with
  | nil => rfl
  | cons a as ih =>
    obtain ⟨ha, has⟩ := List.forall_mem_cons.1 h
    rw [latest, List.foldl_cons, if_neg ha]
    exact ih has

theorem mem_of_latest (h : latest path as before = some v) : (path, v) ∈ as ∨ before = some v := by
  induction as generalizing before with
  | nil => exact .inr h
  | cons a as ih =>
    rw [latest, List.foldl_cons] at h
    rcases ih h with hmem | hbefore
    · exact .inl (List.mem_cons_of_mem _ hmem)
    · split at hbefore
      · rename_i hpath
        cases hbefore
        exact .inl (hpath ▸ List.mem_cons_self)
      · exact .inr hbefore

theorem latest_of_count_le (h : (as.map (·.1)).count path ≤ 1) (before : Option Tree) :
    latest path as before = (as.lookup path).or before := by
  induction as generalizing before with
  | nil => rfl
  | cons a as ih =>
    obtain ⟨path', v⟩ := a
    rw [List.map_cons, List.count_cons] at h
    by_cases hpath : path' = path
    · subst hpath
      rw [if_pos (beq_self_eq_true _)] at h
      have hnone : path' ∉ as.map (·.1) := List.count_eq_zero.1 (by omega)
      rw [latest, List.foldl_cons, if_pos rfl, List.lookup_cons_self]
      exact latest_of_forall_ne fun a ha heq => hnone (List.mem_map.2 ⟨a, ha, heq⟩)
    · rw [latest, List.foldl_cons, if_neg hpath, ← latest, ih (by omega), List.lookup_cons,
        beq_eq_false_iff_ne.2 (Ne.symm hpath)]

theorem latest_under_ne (h : m ≠ n) : latest (n :: path) (as.map (.under [m])) before = before := by
  refine latest_of_forall_ne (List.forall_mem_map.2 fun a _ heq => h ?_)
  exact (List.cons.inj heq).1

theorem respects_under_self : (a.under [n]).Respects (n :: path) ↔ a.Respects path := by
  simp [Assignment.Respects, Assignment.under]

theorem leaves_of_not_isTable (h : t.isTable = false) : leaves t = [([], t)] := by
  cases t <;> first | rfl | cases h

mutual

theorem leaves_ne_nil : ∀ t, leaves t ≠ []
  | table (e :: es) => by
    rw [leaves]
    exact leavesAll_ne_nil e es
  | table [] | null | bool _ | int _ | float _ | text _ | list _ => List.cons_ne_nil _ _

theorem leavesAll_ne_nil : ∀ e es, leavesAll (e :: es) ≠ []
  | (key, v), es => by
    rw [leavesAll]
    exact List.append_ne_nil_of_left_ne_nil (mt List.map_eq_nil_iff.1 (leaves_ne_nil v)) _

end

theorem mem_leavesAll : a ∈ leavesAll es ↔ ∃ key v b, (key, v) ∈ es ∧ b ∈ leaves v ∧ b.under [nameOf key] = a := by
  induction es with
  | nil => simp [leavesAll]
  | cons e es ih =>
    obtain ⟨key, v⟩ := e
    rw [leavesAll, List.mem_append, List.mem_map, ih]
    constructor
    · rintro (⟨b, hb, rfl⟩ | ⟨key', v', b, hmem, hb, rfl⟩)
      · exact ⟨key, v, b, List.mem_cons_self, hb, rfl⟩
      · exact ⟨key', v', b, List.mem_cons_of_mem _ hmem, hb, rfl⟩
    · rintro ⟨key', v', b, hmem, hb, rfl⟩
      rcases List.mem_cons.1 hmem with heq | hmem
      · cases heq
        exact .inl ⟨b, hb, rfl⟩
      · exact .inr ⟨key', v', b, hmem, hb, rfl⟩

theorem not_respects_of_ne_nil (ha : a.1 ≠ []) : ¬a.Respects [] := by
  intro h
  rw [Assignment.Respects, if_neg ha] at h
  exact h.1 List.nil_prefix

/-- A table has nothing to do with a path that ends at it. -/
theorem not_respects_leaves_table (es : List (String × Tree)) : ¬∀ a ∈ leaves (table es), a.Respects [] := by
  intro h
  cases es with
  | nil => exact Bool.false_ne_true (h _ (List.mem_singleton_self _)).symm
  | cons e es =>
    rw [leaves] at h
    obtain ⟨a, ha⟩ := List.exists_mem_of_ne_nil _ (leavesAll_ne_nil e es)
    have hpath : a.1 ≠ [] := by
      obtain ⟨key, v, b, -, -, rfl⟩ := mem_leavesAll.1 ha
      exact List.cons_ne_nil _ _
    exact not_respects_of_ne_nil hpath (h a ha)

/-! ## Laying values over a tree -/

/-- From one tree to another, at a path, by the assignments of a layer. -/
structure Lays (path : List String) (as : List Assignment) (root t : Tree) : Prop where
  value : at? path t = latest path as (at? path root)
  fits : Fits path root → Fits path t

namespace Lays

theorem of_forall_ne (h : ∀ a ∈ as, a.1 ≠ path) (t : Tree) : Lays path as t t where
  value := (latest_of_forall_ne h).symm
  fits := id

theorem refl (path : List String) (t : Tree) : Lays path [] t t :=
  of_forall_ne (fun _ h => absurd h List.not_mem_nil) t

theorem trans (H : Lays path as root t) (H' : Lays path bs t v) : Lays path (as ++ bs) root v where
  value := by rw [H'.value, H.value, latest_append]
  fits := H'.fits ∘ H.fits

theorem lookup_put (n m : String) (w root : Tree) :
    (table (Roster.putItems m w root.entries)).entries.lookup n =
      if n = m then some w else root.entries.lookup n :=
  Roster.lookup_putItems m w root.entries n

/-- Another name is left alone. -/
theorem put_ne (h : m ≠ n) (w : Tree) :
    Lays (n :: path) (as.map (.under [m])) root (table (Roster.putItems m w root.entries)) where
  value := by rw [latest_under_ne h, at?, lookup_put, if_neg h.symm, at?]
  fits := by
    intro hfits v hv
    rw [lookup_put, if_neg h.symm] at hv
    exact hfits v hv

/-- A value is put in its place. -/
theorem put_value (hw : w.isTable = false) :
    Lays [n] [([n], w)] root (table (Roster.putItems n w root.entries)) where
  value := by
    rw [at?, lookup_put, if_pos rfl]
    simp [latest, at?]
  fits := by
    intro _ v hv
    rw [lookup_put, if_pos rfl] at hv
    cases hv
    exact ⟨fun h => absurd rfl h, hw⟩

/-- What is laid over what a name had, or over something empty. -/
theorem put_self (empty : Tree) (hpath : path ≠ []) (hempty : empty.entries = [])
    (hw : (∀ v, root.entries.lookup n = some v → v.isTable = true) → w.isTable = true)
    (H : Lays path as ((root.entries.lookup n).getD empty) w) :
    Lays (n :: path) (as.map (.under [n])) root (table (Roster.putItems n w root.entries)) where
  value := by
    obtain ⟨n', path, rfl⟩ := List.exists_cons_of_ne_nil hpath
    rw [latest_under_self, at?, lookup_put, if_pos rfl, Option.bind_some, H.value, at?]
    cases h : root.entries.lookup n with
    | none => simp [at?, h, hempty]
    | some v => simp [at?, h]
  fits := by
    obtain ⟨n', path, rfl⟩ := List.exists_cons_of_ne_nil hpath
    intro hfits v hv
    rw [lookup_put, if_pos rfl] at hv
    cases hv
    refine ⟨fun _ => hw fun v hv => (hfits v hv).1 hpath, H.fits ?_⟩
    cases h : root.entries.lookup n with
    | none => simp [Fits, hempty]
    | some v => exact (hfits v h).2

end Lays

theorem isTable_merge (key : String) (v root : Tree) : (merge key v root).isTable = true := by
  cases v <;> rfl

theorem isTable_mergeAll (h : root.isTable = true) : (mergeAll es root).isTable = true := by
  induction es generalizing root with
  | nil => exact h
  | cons e es ih => exact ih (isTable_merge _ _ _)

/-- A value that is no table goes to its path or to another one. -/
theorem lays_put (hv : v.isTable = false) (h : ∀ a ∈ leaves v, (a.under [m]).Respects (n :: path)) :
    Lays (n :: path) ((leaves v).map (Assignment.under [m])) root (table (Roster.putItems m v root.entries)) := by
  by_cases hm : m = n
  · subst hm
    rw [leaves_of_not_isTable hv] at h ⊢
    have hrespects := respects_under_self.1 (h _ (List.mem_singleton_self _))
    cases path with
    | nil => exact .put_value hv
    | cons n' path =>
      rw [Assignment.Respects, if_neg (List.cons_ne_nil n' path).symm] at hrespects
      rw [show v = table [] from hrespects.2 List.nil_prefix] at hv
      cases hv
  · exact .put_ne hm v

mutual

theorem lays_merge (n : String) (path : List String) (key : String) (v root : Tree)
    (h : ∀ a ∈ leaves v, (a.under [nameOf key]).Respects (n :: path)) :
    Lays (n :: path) ((leaves v).map (Assignment.under [nameOf key])) root (merge key v root) := by
  cases v with
  | table es =>
    rw [merge]
    by_cases hkey : nameOf key = n
    · subst hkey
      have h' : ∀ a ∈ leaves (table es), a.Respects path := fun a ha => respects_under_self.1 (h a ha)
      cases path with
      | nil => exact absurd h' (not_respects_leaves_table es)
      | cons n' path =>
        refine .put_self (table []) (List.cons_ne_nil _ _) rfl (fun hroot => isTable_mergeAll ?_) ?_
        · cases hv : root.entries.lookup (nameOf key) with
          | none => rfl
          | some v => exact hroot v hv
        · cases es with
          | nil => exact .of_forall_ne (List.forall_mem_singleton.2 (List.cons_ne_nil _ _).symm) _
          | cons e es => exact lays_mergeAll n' path (e :: es) _ h'
    · exact .put_ne hkey _
  | _ => exact lays_put rfl h

theorem lays_mergeAll (n : String) (path : List String) (es : List (String × Tree)) (root : Tree)
    (h : ∀ a ∈ leavesAll es, a.Respects (n :: path)) :
    Lays (n :: path) (leavesAll es) root (mergeAll es root) := by
  match es with
  | [] => exact .refl _ _
  | (key, v) :: rest =>
    rw [leavesAll] at h ⊢
    rw [mergeAll]
    obtain ⟨hfirst, hrest⟩ := List.forall_mem_append.1 h
    exact (lays_merge n path key v root (List.forall_mem_map.1 hfirst)).trans (lays_mergeAll n path rest _ hrest)

end

/-! ## Paths in names -/

/-- The name to which a step of a path leads. -/
def stepName? : PathStep → Option String
  | .child name => some (nameOf name)
  | .item _ => none

/-- The names to which a name at the top of a layer leads. -/
def namesOf (key : String) : List String :=
  match path? key with
  | some steps => steps.filterMap stepName?
  | none => [nameOf key]

theorem filterMap_stepName? (names : List String) :
    (List.map PathStep.child names).filterMap stepName? = names.map nameOf := by
  simp [List.filterMap_map, Function.comp_def, stepName?]

/-- The values that a layer assigns, under their paths. -/
def assignments (layer : List (String × Tree)) : List Assignment :=
  layer.flatMap fun (key, v) => (leaves v).map (.under (namesOf key))

theorem pathSteps?_child {fuel : ℕ} {s : List Char} {steps : List PathStep} (hs : '[' ∉ s)
    (h : pathSteps? fuel s = some steps) : ∃ names, steps = List.map .child names := by
  fun_induction pathSteps? fuel s generalizing steps with
  | case1 => exact ⟨[], (Option.some.inj h).symm⟩
  | case2 => cases h
  | case3 => cases h
  | case4 fuel s name hname =>
    rename_i ih
    obtain ⟨steps, hsteps, rfl⟩ := Option.map_eq_some_iff.1 h
    have hrest : '[' ∉ s.dropWhile isNameChar :=
      fun hmem => hs (List.mem_cons_of_mem _ ((List.dropWhile_suffix _).subset hmem))
    obtain ⟨names, rfl⟩ := ih hrest hsteps
    exact ⟨_ :: names, rfl⟩
  | case5 => exact absurd List.mem_cons_self hs
  | case6 => cases h
  | case7 => cases h

theorem path?_child {key : String} {steps : List PathStep} (hkey : '[' ∉ key.toList) (h : path? key = some steps) :
    ∃ name names, steps = List.map .child (name :: names) := by
  unfold path? at h
  dsimp only at h
  split at h
  · cases h
  · obtain ⟨steps, hsteps, rfl⟩ := Option.map_eq_some_iff.1 h
    obtain ⟨names, rfl⟩ := pathSteps?_child (fun hmem => hkey ((List.dropWhile_suffix _).subset hmem)) hsteps
    exact ⟨_, names, rfl⟩

theorem under_append (names names' : List String) (a : Assignment) :
    a.under (names ++ names') = (a.under names').under names :=
  Prod.ext (List.append_assoc ..) rfl

theorem isTable_layAt (v : Tree) (name : String) (names : List String) (root : Tree) :
    (layAt v ((name :: names).map .child) root).isTable = true := by
  cases names with
  | nil => exact isTable_merge name v root
  | cons => rfl

/-- Below a name the tables on the way are made of what is there. -/
theorem lays_layAt {names : List String} (hnames : names ≠ []) (v root : Tree)
    (h : ∀ a ∈ leaves v, (a.under (names.map nameOf)).Respects (n :: path)) :
    Lays (n :: path) ((leaves v).map (.under (names.map nameOf))) root (layAt v (names.map .child) root) := by
  induction names generalizing n path root with
  | nil => exact absurd rfl hnames
  | cons name names ih =>
    cases names with
    | nil => exact lays_merge n path name v root h
    | cons name' names =>
      have hsplit : (leaves v).map (Assignment.under ((name :: name' :: names).map nameOf)) =
          ((leaves v).map (Assignment.under ((name' :: names).map nameOf))).map (.under [nameOf name]) := by
        rw [List.map_map]
        exact List.map_congr_left fun a _ => under_append [nameOf name] _ a
      rw [hsplit]
      by_cases hname : nameOf name = n
      · subst hname
        have h' : ∀ a ∈ leaves v, (a.under ((name' :: names).map nameOf)).Respects path :=
          fun a ha => respects_under_self.1 (h a ha)
        cases path with
        | nil =>
          obtain ⟨a, ha⟩ := List.exists_mem_of_ne_nil _ (leaves_ne_nil v)
          exact absurd (h' a ha) (not_respects_of_ne_nil (List.cons_ne_nil _ _))
        | cons n' path =>
          exact .put_self null (List.cons_ne_nil _ _) rfl (fun _ => isTable_layAt _ _ _ _)
            (ih (List.cons_ne_nil _ _) _ h')
      · exact .put_ne hname _

theorem lays_lay {key : String} (hkey : '[' ∉ key.toList) (v root : Tree)
    (h : ∀ a ∈ leaves v, (a.under (namesOf key)).Respects (n :: path)) :
    Lays (n :: path) ((leaves v).map (.under (namesOf key))) root (lay key v root) := by
  unfold lay
  rw [namesOf] at h ⊢
  cases hpath : path? key with
  | none =>
    rw [hpath] at h
    exact lays_merge n path key v root h
  | some steps =>
    obtain ⟨name, names, rfl⟩ := path?_child hkey hpath
    rw [hpath] at h
    dsimp only at h ⊢
    rw [filterMap_stepName?] at h ⊢
    exact lays_layAt (List.cons_ne_nil _ _) v root h

theorem lays_layAll {layer : List (String × Tree)} (hkeys : ∀ e ∈ layer, '[' ∉ e.1.toList) (root : Tree)
    (h : ∀ a ∈ assignments layer, a.Respects (n :: path)) :
    Lays (n :: path) (assignments layer) root (layAll layer root) := by
  induction layer generalizing root with
  | nil => exact .refl _ _
  | cons e layer ih =>
    obtain ⟨key, v⟩ := e
    obtain ⟨hkey, hkeys⟩ := List.forall_mem_cons.1 hkeys
    rw [assignments, List.flatMap_cons] at h ⊢
    obtain ⟨hfirst, hrest⟩ := List.forall_mem_append.1 h
    exact (lays_lay hkey v root (List.forall_mem_map.1 hfirst)).trans (ih hkeys _ hrest)

/-! ## Tidy trees -/

mutual

/-- Each name is in lowercase and stands once in its table. -/
def Tidy : Tree → Prop
  | table es => (es.map (·.1)).Nodup ∧ TidyAll es
  | _ => True

def TidyAll : List (String × Tree) → Prop
  | [] => True
  | (key, v) :: rest => nameOf key = key ∧ Tidy v ∧ TidyAll rest

end

theorem nameOf_nameOf (key : String) : nameOf (nameOf key) = nameOf key := by
  rw [nameOf, nameOf, String.toList_ofList, Text.lowercase_lowercase]

theorem TidyAll.of_lookup (H : TidyAll es) (h : es.lookup n = some v) : v.Tidy := by
  induction es with
  | nil => cases h
  | cons e es ih =>
    obtain ⟨key, w⟩ := e
    obtain ⟨-, hw, hes⟩ := H
    rw [Roster.lookup_cons_ite] at h
    split at h
    · cases h
      exact hw
    · exact ih hes h

theorem TidyAll.put (H : TidyAll es) (hn : nameOf n = n) (hv : v.Tidy) : TidyAll (Roster.putItems n v es) := by
  induction es with
  | nil => exact ⟨hn, hv, trivial⟩
  | cons e es ih =>
    obtain ⟨key, w⟩ := e
    obtain ⟨hkey, hw, hes⟩ := H
    rw [Roster.putItems]
    split
    · exact ⟨hkey, hv, hes⟩
    · exact ⟨hkey, hw, ih hes⟩

theorem Tidy.entries (H : t.Tidy) : (t.entries.map (·.1)).Nodup ∧ TidyAll t.entries := by
  cases t with
  | table es => exact H
  | _ => exact ⟨List.nodup_nil, trivial⟩

theorem Tidy.put (H : root.Tidy) (hv : v.Tidy) (hn : nameOf n = n) :
    (table (Roster.putItems n v root.entries)).Tidy :=
  ⟨Roster.nodup_keys_put (r := ⟨root.entries⟩) H.entries.1 n v, H.entries.2.put hn hv⟩

theorem Tidy.getD_lookup (H : root.Tidy) {empty : Tree} (hempty : empty.Tidy) (n : String) :
    ((root.entries.lookup n).getD empty).Tidy := by
  cases h : root.entries.lookup n with
  | none => exact hempty
  | some v => exact H.entries.2.of_lookup h

theorem tidy_empty : (table []).Tidy := ⟨List.nodup_nil, trivial⟩

theorem tidy_null : null.Tidy := trivial

mutual

theorem Tidy.merge (key : String) (v : Tree) {root : Tree} (H : root.Tidy) : (merge key v root).Tidy := by
  cases v with
  | table es => exact H.put (Tidy.mergeAll es (H.getD_lookup tidy_empty _)) (nameOf_nameOf key)
  | _ => exact H.put trivial (nameOf_nameOf key)

theorem Tidy.mergeAll (es : List (String × Tree)) {root : Tree} (H : root.Tidy) : (mergeAll es root).Tidy := by
  match es with
  | [] => exact H
  | (key, v) :: rest => exact Tidy.mergeAll rest (Tidy.merge key v H)

end

theorem Tidy.layAt {names : List String} (hnames : names ≠ []) (v : Tree) (H : root.Tidy) :
    (layAt v (names.map .child) root).Tidy := by
  induction names generalizing root with
  | nil => exact absurd rfl hnames
  | cons name names ih =>
    cases names with
    | nil => exact H.merge name v
    | cons name' names =>
      exact H.put (ih (List.cons_ne_nil _ _) (H.getD_lookup tidy_null _)) (nameOf_nameOf name)

theorem Tidy.lay {key : String} (hkey : '[' ∉ key.toList) (v : Tree) (H : root.Tidy) : (lay key v root).Tidy := by
  unfold Tree.lay
  cases hpath : path? key with
  | none => exact H.merge key v
  | some steps =>
    obtain ⟨name, names, rfl⟩ := path?_child hkey hpath
    exact H.layAt (List.cons_ne_nil _ _) v

theorem lookup_of_mem (H : (table es).Tidy) (h : (n, v) ∈ es) : es.lookup n = some v :=
  (Roster.find?_eq_some_iff (r := ⟨es⟩) H.1).2 h

theorem tidyAll_iff : TidyAll es ↔ ∀ e ∈ es, nameOf e.1 = e.1 ∧ e.2.Tidy := by
  induction es with
  | nil => simp [TidyAll]
  | cons e es ih => rw [TidyAll, List.forall_mem_cons, ih, and_assoc]

/-- Of the entries of a tidy table one assigns at a path. -/
theorem latest_leavesAll_of_lookup (H : (table es).Tidy) (before : Option Tree) :
    latest (n :: path) (leavesAll es) before =
      match es.lookup n with
      | some v => latest path (leaves v) before
      | none => before := by
  induction es generalizing before with
  | nil => rfl
  | cons e es ih =>
    obtain ⟨key, w⟩ := e
    obtain ⟨hnodup, hkey, -, hes⟩ := H
    obtain ⟨hnot, hnodup⟩ := List.nodup_cons.1 hnodup
    rw [leavesAll, latest_append, ih ⟨hnodup, hes⟩, Roster.lookup_cons_ite, hkey]
    by_cases hn : n = key
    · subst hn
      have hnone : es.lookup n = none := Roster.find?_eq_none_iff (r := ⟨es⟩).2 hnot
      rw [hnone, if_pos rfl, latest_under_self]
    · rw [if_neg hn, latest_under_ne (Ne.symm hn)]

theorem latest_leaves_table (es : List (String × Tree)) (before : Option Tree) :
    latest (n :: path) (leaves (table es)) before = latest (n :: path) (leavesAll es) before := by
  cases es with
  | nil => exact latest_of_forall_ne (List.forall_mem_singleton.2 (List.cons_ne_nil _ _).symm)
  | cons e es => rfl

/-- What a tidy table assigns at a path is what it has there. -/
theorem latest_leavesAll (H : (table es).Tidy) (hfits : Fits (n :: path) (table es)) (before : Option Tree) :
    latest (n :: path) (leavesAll es) before = (at? (n :: path) (table es)).or before := by
  induction path generalizing n es with
  | nil =>
    rw [latest_leavesAll_of_lookup H, at?, entries]
    cases hv : es.lookup n with
    | none => rfl
    | some v =>
      dsimp only
      rw [leaves_of_not_isTable (hfits v hv).2]
      rfl
  | cons n' path ih =>
    rw [latest_leavesAll_of_lookup H, at?, entries]
    cases hv : es.lookup n with
    | none => rfl
    | some v =>
      obtain ⟨htable, hfits'⟩ := hfits v hv
      have htidy := H.2.of_lookup hv
      cases v with
      | table es' =>
        dsimp only
        rw [latest_leaves_table, ih htidy hfits']
        rfl
      | _ => cases htable (List.cons_ne_nil _ _)

theorem respects_under_ne (h : m ≠ n) : (a.under [m]).Respects (n :: path) := by
  simp [Assignment.Respects, Assignment.under, h, Ne.symm h]

theorem respects_leavesAll (H : (table es).Tidy) (hfits : Fits (n :: path) (table es)) :
    ∀ a ∈ leavesAll es, a.Respects (n :: path) := by
  intro a ha
  induction path generalizing n es a with
  | nil =>
    obtain ⟨key, v, b, hmem, hb, rfl⟩ := mem_leavesAll.1 ha
    rw [(tidyAll_iff.1 H.2 _ hmem).1]
    by_cases hn : key = n
    · subst hn
      have hvalue := (hfits v (lookup_of_mem H hmem)).2
      rw [leaves_of_not_isTable hvalue, List.mem_singleton] at hb
      rw [respects_under_self, hb, Assignment.Respects, if_pos rfl]
      exact hvalue
    · exact respects_under_ne hn
  | cons n' path ih =>
    obtain ⟨key, v, b, hmem, hb, rfl⟩ := mem_leavesAll.1 ha
    obtain ⟨hkey, htidy⟩ := tidyAll_iff.1 H.2 _ hmem
    rw [hkey]
    by_cases hn : key = n
    · subst hn
      obtain ⟨htable, hfits'⟩ := hfits v (lookup_of_mem H hmem)
      rw [respects_under_self]
      cases v with
      | table es' =>
        cases es' with
        | nil =>
          obtain rfl : b = ([], table []) := List.mem_singleton.1 hb
          rw [Assignment.Respects, if_neg (List.cons_ne_nil n' path).symm]
          exact ⟨fun h => List.cons_ne_nil _ _ (List.prefix_nil.1 h), fun _ => rfl⟩
        | cons e es' => exact ih htidy hfits' b hb
      | _ => cases htable (List.cons_ne_nil _ _)
    · exact respects_under_ne hn

theorem table_entries (h : t.isTable = true) : table t.entries = t := by
  cases t <;> first | rfl | cases h

/-- A tidy tree is laid over another one: what it has counts, and otherwise what was there. -/
theorem at?_mergeAll (H : t.Tidy) (ht : t.isTable = true) (hfits : Fits (n :: path) t) (root : Tree) :
    at? (n :: path) (mergeAll t.entries root) = (at? (n :: path) t).or (at? (n :: path) root) ∧
      (Fits (n :: path) root → Fits (n :: path) (mergeAll t.entries root)) := by
  rw [← table_entries ht] at H hfits
  have hlays := lays_mergeAll n path t.entries root (respects_leavesAll H hfits)
  refine ⟨?_, hlays.fits⟩
  rw [hlays.value, latest_leavesAll H hfits, table_entries ht]

end DeviceNaming.Settings.Tree
