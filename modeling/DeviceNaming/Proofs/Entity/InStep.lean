import DeviceNaming.Proofs.Entity.QueryCache
import DeviceNaming.Proofs.Order.Postings
import DeviceNaming.Proofs.Text.Normal
import Mathlib.Data.Finset.Card

/-!
# The parts of an index stay in step

Whatever is done to an index and its copies, with any provider, the order of the devices, their entries and the two
reverse indexes say the same (`EntityIndex.InStep`): no device is listed twice, no name is blank, no id is left
behind under an old name or area, and no list is empty. So the three ways to ask for the devices of an area agree
(`EntityIndex.Located`). And what they say is what the changes since the index was last emptied have left: the order
lists the devices of the records that survive, and the entry of each has the names of its record
(`EntityIndex.Follows`). All this holds of every copy in every run: `EntityIndex.copies_inStep`.
-/

namespace DeviceNaming

attribute [local irreducible] Text.normalize Text.trimmed

/-- Each name of an entry belongs to its device, stands in its area and is not blank. -/
structure EntityEntry.Uniform (y : EntityEntry) : Prop where
  owner : ∀ v ∈ y.variants, v.entityId = y.entityId
  area : ∀ v ∈ y.variants, v.areaId = y.areaId ∧ v.areaName = y.areaName
  named : ∀ v ∈ y.variants, Text.normalize v.name ≠ ""

theorem EntityRecord.normalize_ne_empty {r : EntityRecord} {n : VariantTag × String}
    (h : n ∈ r.givenNames) : Text.normalize n.2 ≠ "" := by
  obtain ⟨hn, hne⟩ := List.mem_filter.1 h
  obtain ⟨given, -, rfl⟩ := List.mem_map.1 hn
  intro hempty
  rw [Text.normalize_eq_empty_iff, Text.trimmed_trimmed] at hempty
  exact of_decide_eq_true hne hempty

theorem EntityEntry.uniform_ofRecord (r : EntityRecord) (found : List Lookup) :
    (ofRecord r r.givenNames found).Uniform := by
  constructor <;> intro v hv <;> obtain ⟨n, hn, l, -, rfl⟩ := exists_of_mem_variants hv
  · rfl
  · exact ⟨rfl, rfl⟩
  · exact EntityRecord.normalize_ne_empty hn

/-- The entry says of a device what the record says and has the names of the record, with embeddings or without. -/
structure EntityEntry.Records (y : EntityEntry) (r : EntityRecord) : Prop where
  entityId : y.entityId = r.entityId
  domain : y.domain = r.domain
  deviceId : y.deviceId = r.deviceId
  areaId : y.areaId = r.areaId
  areaName : y.areaName = r.areaName
  names : (y.variants.map fun v => (v.tag, v.name)) = r.givenNames

theorem EntityEntry.records_ofRecord {r : EntityRecord} {found : List Lookup}
    (h : found.length = r.givenNames.length) : (ofRecord r r.givenNames found).Records r := by
  refine ⟨rfl, rfl, rfl, rfl, rfl, ?_⟩
  rw [ofRecord, ← List.map_uncurry_zip_eq_zipWith, List.map_map]
  exact List.map_fst_zip (Nat.le_of_eq h.symm)

namespace EntityIndex

variable {x y : EntityIndex} {e : EntityEntry}

/-- The reverse indexes mirror the entries and have no empty list and no id twice in one, and every entry is
uniform. -/
structure InStep (x : EntityIndex) : Prop extends x.Mirrors where
  uniform : ∀ {id e}, x.entries.find? id = some e → e.Uniform
  proper_names : x.names.Proper
  proper_places : x.places.Proper

/-! ## Changes -/

theorem proper_link (hn : x.names.Proper) (hp : x.places.Proper) (e : EntityEntry) :
    (x.link e).names.Proper ∧ (x.link e).places.Proper := by
  refine ⟨hn.foldl_link _ _, ?_⟩
  unfold link
  dsimp only
  split
  · exact hp.link _ _
  · exact hp

theorem proper_unlink (hn : x.names.Proper) (hp : x.places.Proper) (e : EntityEntry) :
    (x.unlink e).names.Proper ∧ (x.unlink e).places.Proper := by
  refine ⟨hn.foldl_unlink _ _, ?_⟩
  unfold unlink
  dsimp only
  split
  · exact hp.unlink _ _
  · exact hp

namespace InStep

theorem of_alike (H : x.InStep) (A : x.Alike y) : y.InStep where
  toMirrors := H.toMirrors.of_alike A
  uniform h := H.uniform (A.entries ▸ h)
  proper_names := A.names ▸ H.proper_names
  proper_places := A.places ▸ H.proper_places

theorem of_empty (ho : x.order = []) (he : x.entries = .empty) (hn : x.names = .empty) (hp : x.places = .empty) :
    x.InStep where
  toMirrors := .of_empty ho he hn hp
  uniform h := by
    rw [he] at h
    cases h
  proper_names := hn ▸ Postings.proper_empty
  proper_places := hp ▸ Postings.proper_empty

theorem proper_forget (H : x.InStep) (id : String) :
    (x.forget id).names.Proper ∧ (x.forget id).places.Proper := by
  unfold forget
  split
  · exact proper_unlink H.proper_names H.proper_places _
  · exact ⟨H.proper_names, H.proper_places⟩

theorem store (H : x.InStep) (he : e.Uniform) : (x.store e).InStep := by
  obtain ⟨hnames, hplaces⟩ := H.proper_forget e.entityId
  obtain ⟨hnames, hplaces⟩ := proper_link hnames hplaces e
  refine ⟨H.toMirrors.store e, fun {id e'} h => ?_, x.store_names e ▸ hnames, x.store_places e ▸ hplaces⟩
  rw [store_entries, Roster.find?_put] at h
  split at h
  · cases h
    exact he
  · exact H.uniform h

theorem remove (H : x.InStep) (id : String) : (x.remove id).2.InStep := by
  cases hfind : x.entries.find? id with
  | none =>
    rw [remove_of_find?_eq_none hfind]
    exact H
  | some old =>
    obtain ⟨hnames, hplaces⟩ := H.proper_forget id
    have hmirrors := H.toMirrors.remove id
    have hentries := x.remove_entries id
    rw [remove_of_find? hfind] at hmirrors hentries ⊢
    refine ⟨hmirrors, fun {id' e'} h => ?_, hnames, hplaces⟩
    rw [hentries, Roster.find?_erase] at h
    split at h
    · cases h
    · exact H.uniform h

theorem add (H : x.InStep) (e : Embedder) (r : EntityRecord) (s : Shared) : (x.add e r s).1.InStep :=
  H.store (EntityEntry.uniform_ofRecord r _)

end InStep

/-! ## The devices of an area -/

/-- The list of an area, the map from devices to areas, the filter of the searches and the number of areas all say
what the entries say. -/
structure Located (x : EntityIndex) : Prop where
  mem_inArea : ∀ {a id}, id ∈ x.inArea a ↔ x.areaOf id = some a
  mem_areaMap : ∀ {a id}, (id, a) ∈ x.areaMap ↔ x.areaOf id = some a
  nodup_areaMap : (x.areaMap.map (·.1)).Nodup
  mem_candidates : ∀ {a id}, id ∈ (x.candidates none (some a)).map (·.entityId) ↔ x.areaOf id = some a
  candidates_eq : ∀ domain a, x.candidates domain (some a) =
    (x.candidates domain none).filter fun y => decide (y.entityId ∈ x.inArea a)
  areaCount_eq : x.stats.areaCount = (x.entries.values.filterMap (·.areaId)).toFinset.card

namespace InStep

theorem mem_inArea (H : x.InStep) {a id : String} : id ∈ x.inArea a ↔ x.areaOf id = some a := by
  rw [inArea, H.places, areaOf, Option.bind_eq_some_iff]

theorem mem_areaMap (H : x.InStep) {a id : String} : (id, a) ∈ x.areaMap ↔ x.areaOf id = some a := by
  rw [areaMap, areaOf, Option.bind_eq_some_iff, List.mem_filterMap]
  constructor
  · rintro ⟨y, hy, hmap⟩
    obtain ⟨b, hb, heq⟩ := Option.map_eq_some_iff.1 hmap
    cases heq
    exact ⟨y, H.find?_entityId hy, hb⟩
  · rintro ⟨y, hy, ha⟩
    refine ⟨y, Roster.mem_values_of_find? hy, ?_⟩
    rw [ha, H.own hy]
    rfl

theorem nodup_areaMap (H : x.InStep) : (x.areaMap.map (·.1)).Nodup := by
  rw [areaMap, List.map_filterMap, List.Nodup, List.pairwise_filterMap]
  have hids : (x.entries.values.map (·.entityId)).Nodup := by
    rw [Roster.map_values H.nodup H.own]
    exact H.nodup
  refine (List.pairwise_map.1 hids).imp fun {y z} hne b hb c hc => ?_
  obtain ⟨p, hp, rfl⟩ := Option.map_eq_some_iff.1 hb
  obtain ⟨q, hq, rfl⟩ := Option.map_eq_some_iff.1 hc
  obtain ⟨a, -, rfl⟩ := Option.map_eq_some_iff.1 hp
  obtain ⟨a', -, rfl⟩ := Option.map_eq_some_iff.1 hq
  exact hne

theorem mem_candidates (H : x.InStep) {a id : String} :
    id ∈ (x.candidates none (some a)).map (·.entityId) ↔ x.areaOf id = some a := by
  rw [candidates, H.ordered_eq, areaOf, Option.bind_eq_some_iff, List.mem_map]
  constructor
  · rintro ⟨y, hy, rfl⟩
    obtain ⟨hy, hpasses⟩ := List.mem_filter.1 hy
    exact ⟨y, H.find?_entityId hy, of_decide_eq_true hpasses⟩
  · rintro ⟨y, hy, ha⟩
    exact ⟨y, List.mem_filter.2 ⟨Roster.mem_values_of_find? hy, decide_eq_true ha⟩, H.own hy⟩

theorem candidates_eq (H : x.InStep) (domain : Option String) (a : String) :
    x.candidates domain (some a) =
      (x.candidates domain none).filter fun y => decide (y.entityId ∈ x.inArea a) := by
  rw [candidates, candidates, List.filter_filter]
  refine List.filter_congr fun y hy => ?_
  have hin : decide (y.entityId ∈ x.inArea a) = decide (y.areaId = some a) := by
    rw [decide_eq_decide, H.mem_inArea, areaOf, H.find?_entityId (mem_values_of_mem_ordered hy), Option.bind_some]
  rw [hin]
  unfold EntityEntry.passes
  rw [Bool.and_true, Bool.and_comm]

theorem areaCount_eq (H : x.InStep) :
    x.stats.areaCount = (x.entries.values.filterMap (·.areaId)).toFinset.card := by
  have hkeys : x.places.keys.toFinset = (x.entries.values.filterMap (·.areaId)).toFinset := by
    ext a
    rw [List.mem_toFinset, List.mem_toFinset, H.proper_places.mem_keys_iff, List.mem_filterMap]
    constructor
    · rintro ⟨id, hid⟩
      obtain ⟨y, hy, ha⟩ := H.places.1 hid
      exact ⟨y, Roster.mem_values_of_find? hy, ha⟩
    · rintro ⟨y, hy, ha⟩
      exact ⟨y.entityId, H.places.2 ⟨y, H.find?_entityId hy, ha⟩⟩
  calc x.stats.areaCount = x.places.keys.length := (List.length_map _).symm
    _ = x.places.keys.toFinset.card := (List.toFinset_card_of_nodup H.proper_places.distinct).symm
    _ = _ := congrArg Finset.card hkeys

theorem located (H : x.InStep) : x.Located :=
  ⟨H.mem_inArea, H.mem_areaMap, H.nodup_areaMap, H.mem_candidates, H.candidates_eq, H.areaCount_eq⟩

/-- No name of a device is scored as an empty one. -/
theorem overlapScore_eq (H : x.InStep) (hy : e ∈ x.entries.values) {name : String} (hname : name ∈ e.normalNames)
    (text : String) :
    overlapScore text name =
      if Text.occursIn text name || Text.occursIn name text then
        some (Binary32.ofNat text.length / Binary32.ofNat name.length)
      else none := by
  obtain ⟨given, hgiven, rfl⟩ := List.mem_map.1 hname
  obtain ⟨v, hv, rfl⟩ := List.mem_map.1 hgiven
  rw [overlapScore, if_neg ((H.uniform (H.find?_entityId hy)).named v hv)]

end InStep

/-! ## The records that are left -/

/-- The index has the devices of the records, in their order. -/
structure Follows (x : EntityIndex) (rs : List EntityRecord) : Prop where
  order : x.order = rs.map (·.entityId)
  recorded : ∀ r ∈ rs, ∃ y, x.entries.find? r.entityId = some y ∧ y.Records r

namespace Follows

variable {rs : List EntityRecord}

theorem of_alike (F : x.Follows rs) (A : x.Alike y) : y.Follows rs :=
  ⟨A.order.trans F.order, A.entries ▸ F.recorded⟩

theorem of_empty (ho : x.order = []) : x.Follows [] := ⟨ho, nofun⟩

/-- After a change the index has the devices of the records that the change leaves. -/
theorem apply (F : x.Follows rs) (H : x.Mirrors) (e : Embedder) (d : Edit) (s : Shared) :
    (d.apply e (x, s)).1.Follows (d.onRecords rs) := by
  refine ⟨by rw [H.order_apply, F.order, Edit.map_entityId_onRecords], fun r hr => ?_⟩
  cases d with
  | add new =>
    have hentries : ((Edit.add new).apply e (x, s)).1.entries = x.entries.put new.entityId
        (.ofRecord new new.givenNames (e.embedMany (new.givenNames.map (·.2)) s).1) := store_entries ..
    rw [hentries, Roster.find?_put]
    rcases Edit.mem_onRecords_add hr with rfl | ⟨hr, hne⟩
    · refine ⟨_, if_pos rfl, EntityEntry.records_ofRecord ?_⟩
      rw [e.length_embedMany, List.length_map]
    · rw [if_neg hne]
      exact F.recorded r hr
  | remove id =>
    obtain ⟨hr, hne⟩ := List.mem_filter.1 hr
    rw [Edit.apply, remove_entries, Roster.find?_erase, if_neg (of_decide_eq_true hne)]
    exact F.recorded r hr

end Follows

/-! ## Runs -/

/-- The changes to a copy that count after it was used: emptying it makes up for all before. -/
def Use.onEdits : Use → List Edit → List Edit
  | add r, edits => edits ++ [.add r]
  | remove entityId, edits => edits ++ [.remove entityId]
  | clear, _ => []
  | search _, edits | searchExact _, edits | cleanupQueries, edits | clearQueries, edits => edits

/-- The changes to each of the copies after a step. A copy starts with those of the copy that it was made of. -/
def CopyStep.onEdits : CopyStep → List (List Edit) → List (List Edit)
  | use n u, logs => logs.modify n u.onEdits
  | fork n, logs => logs ++ logs[n]?.toList
  | advance _, logs => logs

/-- The changes to each of the copies since it was last emptied, by the steps of a run. -/
def Copies.edits (steps : List CopyStep) : List (List Edit) :=
  steps.foldl (fun logs d => d.onEdits logs) [[]]

/-- The copy is in step and has the devices that some changes leave. -/
structure Copy.Tracks (c : Copy) (edits : List Edit) : Prop where
  inStep : c.index.InStep
  follows : c.index.Follows (Edit.survivors edits [])

namespace Copy.Tracks

variable {c : Copy} {edits : List Edit}

theorem of_alike (T : c.Tracks edits) {c' : Copy} (A : c.index.Alike c'.index) : c'.Tracks edits :=
  ⟨T.inStep.of_alike A, T.follows.of_alike A⟩

theorem apply (T : c.Tracks edits) (e : Embedder) (u : Use) (s : Shared) :
    (u.apply e c s).1.Tracks (u.onEdits edits) := by
  cases u with
  | add r =>
    refine ⟨T.inStep.add e r s, ?_⟩
    rw [Use.onEdits, Edit.survivors_concat]
    exact T.follows.apply T.inStep.toMirrors e (.add r) s
  | remove id =>
    refine ⟨T.inStep.remove id, ?_⟩
    rw [Use.onEdits, Edit.survivors_concat]
    exact T.follows.apply T.inStep.toMirrors e (.remove id) s
  | search q => exact T.of_alike (alike_search e q c.index s)
  | searchExact q => exact T
  | cleanupQueries => exact T.of_alike ⟨rfl, rfl, rfl, rfl⟩
  | clearQueries => exact T.of_alike ⟨rfl, rfl, rfl, rfl⟩
  | clear => exact ⟨.of_empty rfl rfl rfl rfl, .of_empty rfl⟩

end Copy.Tracks

namespace Copies

/-- Each copy tracks its changes. -/
def Logged (p : Copies) (logs : List (List Edit)) : Prop := List.Forall₂ Copy.Tracks p.all logs

variable {p : Copies} {logs : List (List Edit)}

theorem logged_start (maxSize : Nat) (ttl : Option Nat) (s : Shared) : (start maxSize ttl s).Logged [[]] :=
  .cons ⟨.of_empty rfl rfl rfl rfl, .of_empty rfl⟩ .nil

theorem Logged.tracks (T : p.Logged logs) {n : Nat} {c : Copy} (hc : p.all[n]? = some c) :
    ∃ edits, logs[n]? = some edits ∧ c.Tracks edits := by
  obtain ⟨hn, rfl⟩ := List.getElem?_eq_some_iff.1 hc
  have hn' : n < logs.length := T.length_eq ▸ hn
  exact ⟨_, List.getElem?_eq_getElem hn', T.get hn hn'⟩

theorem Logged.length_le (T : p.Logged logs) {n : Nat} (h : p.all[n]? = none) : logs.length ≤ n :=
  T.length_eq ▸ List.getElem?_eq_none_iff.1 h

/-- Where a copy changes and its log with it, the other copies track theirs as before. -/
theorem tracks_set {all : List Copy} (T : List.Forall₂ Copy.Tracks all logs) {n : Nat} {c : Copy}
    {f : List Edit → List Edit} (h : ∀ old edits, all[n]? = some old → old.Tracks edits → c.Tracks (f edits)) :
    List.Forall₂ Copy.Tracks (all.set n c) (logs.modify n f) := by
  induction T generalizing n with
  | nil =>
    rw [List.set_nil, List.modify_nil]
    exact .nil
  | cons hfirst hrest ih =>
    cases n with
    | zero => exact .cons (h _ _ rfl hfirst) hrest
    | succ n => exact .cons hfirst (ih h)

theorem Logged.step (T : p.Logged logs) (e : Embedder) (d : CopyStep) : (p.step e d).Logged (d.onEdits logs) := by
  cases d with
  | use n u =>
    rw [Copies.step]
    split
    · rename_i hnone
      rw [CopyStep.onEdits, List.modify_eq_self (T.length_le hnone)]
      exact T
    · rename_i c hc
      refine tracks_set T fun old edits hold hedits => ?_
      cases hc.symm.trans hold
      exact hedits.apply e u p.shared
  | fork n =>
    rw [Copies.step]
    split
    · rename_i hnone
      rw [CopyStep.onEdits, List.getElem?_eq_none (T.length_le hnone), Option.toList_none, List.append_nil]
      exact T
    · rename_i c hc
      obtain ⟨edits, hedits, hc⟩ := T.tracks hc
      rw [CopyStep.onEdits, hedits]
      exact List.rel_append T (.cons (hc.of_alike ⟨rfl, rfl, rfl, rfl⟩) .nil)
  | advance ms => exact T

theorem Logged.run (T : p.Logged logs) (e : Embedder) (steps : List CopyStep) :
    (p.run e steps).Logged (steps.foldl (fun logs d => d.onEdits logs) logs) := by
  induction steps generalizing p logs with
  | nil => exact T
  | cons d steps ih => exact ih (T.step e d)

theorem logged_run (e : Embedder) (maxSize : Nat) (ttl : Option Nat) (s : Shared) (steps : List CopyStep) :
    ((start maxSize ttl s).run e steps).Logged (edits steps) := (logged_start maxSize ttl s).run e steps

theorem Logged.inStep (T : p.Logged logs) : ∀ c ∈ p.all, c.index.InStep := by
  intro c hc
  obtain ⟨n, hn⟩ := List.mem_iff_getElem?.1 hc
  obtain ⟨edits, -, hc⟩ := T.tracks hn
  exact hc.inStep

end Copies

/-- After any steps with any provider, the parts of every copy are in step, the ways to ask for the devices of an
area agree, no name is scored as an empty one, and the order and the entries are those of the records that the changes to
this copy have left. -/
theorem copies_inStep (e : Embedder) (maxSize : Nat) (ttl : Option Nat) (s : Shared) (steps : List CopyStep) :
    (∀ c ∈ ((Copies.start maxSize ttl s).run e steps).all,
      c.index.InStep ∧ c.index.Located ∧ c.index.order.Nodup ∧
      (∀ id, id ∈ c.index.order ↔ ∃ y, c.index.entries.find? id = some y) ∧
      ∀ y ∈ c.index.entries.values, ∀ name ∈ y.normalNames, ∀ text, overlapScore text name =
        if Text.occursIn text name || Text.occursIn name text then
          some (Binary32.ofNat text.length / Binary32.ofNat name.length)
        else none) ∧
    List.Forall₂ (fun c edits => c.index.Follows (Edit.survivors edits []))
      ((Copies.start maxSize ttl s).run e steps).all (Copies.edits steps) := by
  have T := Copies.logged_run e maxSize ttl s steps
  refine ⟨fun c hc => ?_, T.imp fun c edits hc => hc.follows⟩
  have H := T.inStep c hc
  exact ⟨H, H.located, H.nodup_order, fun id => H.mem_order, fun y hy name hname => H.overlapScore_eq hy hname⟩

/-- A lamp with a repeated and a blank name, which moves to the office under one of its names, and a copy. -/
def movedLampSteps : List CopyStep := [
  .use 0 (.add (Sample.device "light.hall"
    [(.primaryName, " Hall"), (.aliasName, "HALL "), (.aliasName, " ")] "hall" "Hall")),
  .use 0 (.add Sample.officeLamp),
  .use 0 (.add (Sample.device "light.hall" [(.primaryName, "Office Lamp")] "office" "Office")),
  .fork 0, .use 0 (.remove "light.office_lamp"), .use 1 .clear]

def movedLamp : Copies :=
  (Copies.start 1 none (.start Settings.default.embeddingCache)).run ⟨some .failing, 200⟩ movedLampSteps

theorem copies_inStep_moved_lamp :
    movedLamp.all.map (fun c => (c.index.order, c.index.names.items, c.index.places.items)) =
        [(["light.hall"], [("office lamp", ["light.hall"])], [("office", ["light.hall"])]), ([], [], [])] ∧
      (∀ c ∈ movedLamp.all,
        c.index.InStep ∧ c.index.Located ∧ c.index.order.Nodup ∧
        (∀ id, id ∈ c.index.order ↔ ∃ y, c.index.entries.find? id = some y) ∧
        ∀ y ∈ c.index.entries.values, ∀ name ∈ y.normalNames, ∀ text, overlapScore text name =
          if Text.occursIn text name || Text.occursIn name text then
            some (Binary32.ofNat text.length / Binary32.ofNat name.length)
          else none) ∧
      List.Forall₂ (fun c edits => c.index.Follows (Edit.survivors edits []))
        movedLamp.all (Copies.edits movedLampSteps) :=
  ⟨by decide +kernel, copies_inStep _ _ _ _ _⟩

end EntityIndex

end DeviceNaming
