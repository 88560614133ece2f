import DeviceNaming.Proofs.Area.Names
import DeviceNaming.Proofs.Order.Postings
import Mathlib.Data.List.Dedup

/-!
# The parts of a registry stay in step

Whatever is registered, with any ids, names and parents, the order of the areas, the areas, the index of names and
the tree say the same (`AreaRegistry.InStep`). They say it of the present registration of each area and of no
earlier one (`AreaRegistry.Current`): a name, an alias or a parent that an area had before is left behind nowhere.
Both hold after any changes: `AreaRegistry.changed_inStep`.
-/

namespace DeviceNaming

attribute [local irreducible] Text.normalize Text.trimmed

namespace AreaLog

variable {log : AreaLog}

/-- The registered areas in the order in which they first came. -/
def arrivals (log : AreaLog) : List String := (log.map (·.areaId)).dedup.reverse

theorem arrivals_cons (r : AreaRecord) (log : AreaLog) :
    arrivals (r :: log) =
      if r.areaId ∈ log.arrivals then log.arrivals else log.arrivals ++ [r.areaId] := by
  simp only [arrivals, List.map_cons, List.mem_reverse, List.mem_dedup]
  by_cases hid : r.areaId ∈ log.map (·.areaId)
  · rw [List.dedup_cons_of_mem hid, if_pos hid]
  · rw [List.dedup_cons_of_notMem hid, if_neg hid, List.reverse_cons]

end AreaLog

/-- An area without its embedding. -/
def Area.bare (a : Area) : Area := { a with embedding := none }

namespace AreaRegistry

variable {g : AreaRegistry} {a : Area} {log : AreaLog}

/-! ## The index of names and the tree -/

theorem nodup_releaseName {names : Roster String} (h : names.keys.Nodup) (label id : String) :
    (releaseName names label id).keys.Nodup := by
  unfold releaseName
  split
  · exact Roster.nodup_keys_erase h label
  · exact h

theorem nodup_names_forget (h : g.names.keys.Nodup) (id : String) : (g.forget id).names.keys.Nodup := by
  unfold forget
  split
  · rename_i old _
    exact List.foldlRecOn (motive := fun ns : Roster String => ns.keys.Nodup) old.labels _ h
      fun _ hns label _ => nodup_releaseName hns _ _
  · exact h

theorem nodup_names_register (h : g.names.keys.Nodup) (a : Area) : (g.register a).names.keys.Nodup := by
  rw [register_eq]
  exact List.foldlRecOn (motive := fun ns : Roster String => ns.keys.Nodup) a.normalLabels _
    (nodup_names_forget h a.areaId) fun _ hns label _ => Roster.nodup_keys_put hns label a.areaId

theorem proper_children_forget (h : g.children.Proper) (id : String) : (g.forget id).children.Proper := by
  unfold forget
  split
  · unfold unregister
    dsimp only
    split
    · exact h.unlink _ _
    · exact h
  · exact h

theorem proper_children_register (h : g.children.Proper) (a : Area) : (g.register a).children.Proper := by
  have hforget := proper_children_forget h a.areaId
  rw [register_eq]
  unfold enter
  dsimp only
  split
  · exact hforget.link _ _
  · exact hforget

/-! ## The parts of a registry -/

/-- No area is listed twice, each name leads to one registered area, which bears it, and the areas below an area are
those that name it as their parent, each of them once. -/
structure InStep (g : AreaRegistry) : Prop extends g.Filed where
  nodup_names : g.names.keys.Nodup
  parented : g.Parented
  proper_children : g.children.Proper

theorem inStep_empty (threshold : Binary32) : (empty threshold).InStep :=
  ⟨filed_empty threshold, List.nodup_nil, parented_empty threshold, Postings.proper_empty⟩

theorem InStep.register (H : g.InStep) (a : Area) : (g.register a).InStep where
  toFiled := H.toFiled.register a
  nodup_names := nodup_names_register H.nodup_names a
  parented := H.parented.register H.toListed a
  proper_children := proper_children_register H.proper_children a

/-! ## The present registrations -/

/-- The areas are those of the present registrations, whatever embeddings they have. -/
def AsRegistered (g : AreaRegistry) (log : AreaLog) : Prop :=
  ∀ id, (g.areas.find? id).map Area.bare = (log.latest id).map fun r => Area.ofRecord r none

/-- The registry holds the present registration of each area, in the order in which the areas first came; names and
parents are those of present registrations. -/
structure Current (g : AreaRegistry) (log : AreaLog) : Prop where
  order : g.order = log.arrivals
  registered : g.AsRegistered log
  borne : ∀ {label id}, g.names.find? label = some id → ∃ r, log.latest id = some r ∧ label ∈ r.normalLabels
  parent : ∀ {p id}, id ∈ g.children.ids p ↔ ∃ r, log.latest id = some r ∧ r.parentId = some p

namespace AsRegistered

variable (R : g.AsRegistered log)

include R

theorem exists_latest {id : String} (ha : g.areas.find? id = some a) :
    ∃ r, log.latest id = some r ∧ a.normalLabels = r.normalLabels ∧ a.parentId = r.parentId := by
  have hmap := R id
  rw [ha] at hmap
  obtain ⟨r, hr, hbare⟩ := Option.map_eq_some_iff.1 hmap.symm
  have hlabels : a.bare.normalLabels = r.normalLabels := congrArg Area.normalLabels hbare.symm
  have hparent : a.bare.parentId = r.parentId := congrArg Area.parentId hbare.symm
  exact ⟨r, hr, hlabels, hparent⟩

theorem exists_area {id : String} {r : AreaRecord} (hr : log.latest id = some r) :
    ∃ a, g.areas.find? id = some a ∧ a.parentId = r.parentId := by
  have hmap := R id
  rw [hr] at hmap
  obtain ⟨a, ha, hbare⟩ := Option.map_eq_some_iff.1 hmap
  have hparent : a.bare.parentId = r.parentId := congrArg Area.parentId hbare
  exact ⟨a, ha, hparent⟩

theorem register (r : AreaRecord) (embedding : Option Embedding) :
    (g.register (.ofRecord r embedding)).AsRegistered (r :: log) := by
  have hid : (Area.ofRecord r embedding).areaId = r.areaId := rfl
  intro id
  rw [find?_register, AreaLog.latest_cons, hid]
  by_cases h : r.areaId = id
  · rw [if_pos h.symm, if_pos h]
    rfl
  · rw [if_neg fun h' => h h'.symm, if_neg h]
    exact R id

end AsRegistered

/-- Where the parts of a registry are in step, names and parents are current if the areas are. -/
theorem InStep.current (H : g.InStep) (horder : g.order = log.arrivals) (R : g.AsRegistered log) :
    g.Current log := by
  refine ⟨horder, R, fun {label id} hname => ?_, fun {p id} => ?_⟩
  · obtain ⟨a, ha, hlabel⟩ := H.borne hname
    obtain ⟨r, hr, hlabels, -⟩ := R.exists_latest ha
    exact ⟨r, hr, hlabels ▸ hlabel⟩
  · rw [H.parented]
    constructor
    · rintro ⟨a, ha, hparent⟩
      obtain ⟨r, hr, -, heq⟩ := R.exists_latest ha
      exact ⟨r, hr, heq ▸ hparent⟩
    · rintro ⟨r, hr, hparent⟩
      obtain ⟨a, ha, heq⟩ := R.exists_area hr
      exact ⟨a, ha, heq.trans hparent⟩

theorem current_empty (threshold : Binary32) : (empty threshold).Current [] :=
  (inStep_empty threshold).current rfl fun _ => rfl

theorem Current.register (C : g.Current log) (H : g.InStep) (r : AreaRecord) (embedding : Option Embedding) :
    (g.register (.ofRecord r embedding)).Current (r :: log) := by
  have hid : (Area.ofRecord r embedding).areaId = r.areaId := rfl
  refine (H.register _).current ?_ (C.registered.register r embedding)
  rw [H.order_register, AreaLog.arrivals_cons, C.order, hid]

end AreaRegistry

/-! ## Changes -/

/-- The registry after changes. Each change meets a shared state of its own: in between time may pass, and others may
use the cache. -/
def AreaChange.applyEach (e : Embedder) (changes : List (AreaChange × Shared)) (g : AreaRegistry) : AreaRegistry :=
  changes.foldl (fun g p => (p.1.apply e (g, p.2)).1) g

namespace AreaRegistry

variable {g : AreaRegistry} {log : AreaLog}

theorem inStep_apply (e : Embedder) (c : AreaChange) (s : Shared) (H : g.InStep ∧ g.Current log) :
    (c.apply e (g, s)).1.InStep ∧ (c.apply e (g, s)).1.Current (c.onLog log) := by
  cases c with
  | add r =>
    unfold AreaChange.apply AreaRegistry.add AreaChange.onLog AreaLog.enter
    dsimp only
    split
    · exact H
    · exact ⟨H.1.register _, H.2.register H.1 r _⟩
  | clear => exact ⟨inStep_empty _, current_empty _⟩

theorem inStep_applyEach (e : Embedder) (changes : List (AreaChange × Shared)) (H : g.InStep ∧ g.Current log) :
    (AreaChange.applyEach e changes g).InStep ∧
      (AreaChange.applyEach e changes g).Current ((changes.map (·.1)).foldl (fun log c => c.onLog log) log) := by
  induction changes generalizing g log with
  | nil => exact H
  | cons p changes ih => exact ih (inStep_apply e p.1 p.2 H)

/-- After any changes the parts of a registry are in step, they list exactly the registered areas, and nothing of an
earlier registration of an area is left in them. -/
theorem changed_inStep (e : Embedder) (threshold : Binary32) (changes : List (AreaChange × Shared)) :
    (AreaChange.applyEach e changes (.empty threshold)).InStep ∧
      (AreaChange.applyEach e changes (.empty threshold)).order.Nodup ∧
      (∀ id, id ∈ (AreaChange.applyEach e changes (.empty threshold)).order ↔
        ∃ a, (AreaChange.applyEach e changes (.empty threshold)).areas.find? id = some a) ∧
      (AreaChange.applyEach e changes (.empty threshold)).Current (AreaChange.log (changes.map (·.1))) := by
  obtain ⟨H, C⟩ := inStep_applyEach e changes ⟨inStep_empty threshold, current_empty threshold⟩
  exact ⟨H, H.nodup_order, fun id => H.mem_order, C⟩

end AreaRegistry

end DeviceNaming
