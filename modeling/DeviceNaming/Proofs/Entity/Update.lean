import DeviceNaming.Proofs.Entity.Ranking
import Mathlib.Data.List.Nodup

/-!
# Updates of an index

What an index keeps while devices come and go (`EntityIndex.Built`), and what it then consists of: the index
that is left after any number of changes holds the entries of the records that survive them
(`EntityIndex.edited_spec`), in the order in which their ids arrived.
-/

namespace DeviceNaming

/-- The entry that a record gets from a steady provider. -/
def Embedder.entryOf (e : Embedder) (r : EntityRecord) : EntityEntry :=
  .ofRecord r r.givenNames (r.givenNames.map fun n => e.answer n.2)

theorem Embedder.Steady.fits_entryOf {e : Embedder} (he : e.Steady) (r : EntityRecord) :
    ∀ v ∈ (e.entryOf r).embeddings, e.Fits v := by
  intro v hv
  obtain ⟨n, -, hready⟩ := List.mem_map.1 (EntityEntry.ready_of_mem_embeddings hv)
  exact he.fits_of_answer hready

namespace EntityIndex

variable {e : Embedder} {x y : EntityIndex} {s : Shared}

/-- The reverse indexes mirror the entries, and all embeddings are of the declared dimension. -/
structure Built (e : Embedder) (x : EntityIndex) : Prop where
  mirrors : x.Mirrors
  measured : x.Measured e

theorem Measured.store (M : x.Measured e) {y : EntityEntry} (hy : ∀ v ∈ y.embeddings, e.Fits v) :
    (x.store y).Measured e := by
  intro z hz
  rw [store_entries] at hz
  rcases Roster.mem_values_put hz with rfl | hz
  · exact hy
  · exact M z hz

theorem Measured.remove (M : x.Measured e) (id : String) : (x.remove id).2.Measured e := by
  intro y hy
  rw [remove_entries] at hy
  exact M y (Roster.mem_values_erase hy)

namespace Built

theorem of_alike (H : x.Built e) (A : x.Alike y) : y.Built e :=
  ⟨H.mirrors.of_alike A, H.measured.of_alike A⟩

theorem of_empty (ho : x.order = []) (he : x.entries = .empty) (hn : x.names = .empty) (hp : x.places = .empty) :
    x.Built e := by
  refine ⟨.of_empty ho he hn hp, fun y hy => ?_⟩
  rw [he] at hy
  cases hy

theorem store (H : x.Built e) (he : e.Steady) (r : EntityRecord) : (x.store (e.entryOf r)).Built e :=
  ⟨H.mirrors.store _, H.measured.store (he.fits_entryOf r)⟩

theorem remove (H : x.Built e) (id : String) : (x.remove id).2.Built e :=
  ⟨H.mirrors.remove id, H.measured.remove id⟩

end Built

/-- While its rankings are current, an index finds the ranking of its entries. -/
theorem Built.search_eq (H : x.Built e) (C : x.Current e) (he : e.Steady) (hs : s.Coherent e) (q : Query) :
    (x.search e q s).1 = .ok (e.ranking x.ordered q) := by
  obtain ⟨found, z, t, hsearch, -, -, -, hfound⟩ := search_spec H.mirrors H.measured he hs q
  rw [hsearch, (hfound C).1]

theorem Current.remove (C : x.Current e) (id : String) : (x.remove id).2.Current e := by
  rcases x.remove_cases id with ⟨-, h⟩ | ⟨-, h⟩
  · rw [h]
    exact C
  · exact current_of_entries_eq_nil h

/-- Adding a device stores the entry of its record. -/
theorem add_spec (he : e.Steady) (hs : s.Coherent e) (r : EntityRecord) (x : EntityIndex) :
    ∃ t, x.add e r s = (x.store (e.entryOf r), t) ∧ t.Coherent e ∧ s.LeadsTo e t := by
  obtain ⟨hfound, ht⟩ := hs.embedMany he (r.givenNames.map (·.2))
  have hleads := Shared.LeadsTo.embedMany e (r.givenNames.map (·.2)) s
  rcases hmany : e.embedMany (r.givenNames.map (·.2)) s with ⟨found, t⟩
  rw [hmany, List.map_map, Function.comp_def] at hfound
  rw [hmany] at ht hleads
  have hentry : e.entryOf r = .ofRecord r r.givenNames found :=
    congrArg (EntityEntry.ofRecord r r.givenNames) hfound.symm
  exact ⟨t, by rw [add, hmany, hentry], ht, hleads⟩

end EntityIndex

/-! ## Runs of changes -/

/-- A change to the devices of an index. -/
inductive Edit where
  | add (r : EntityRecord)
  | remove (entityId : String)

namespace Edit

def apply (e : Embedder) : Edit → EntityIndex × Shared → EntityIndex × Shared
  | add r, (x, s) => x.add e r s
  | remove entityId, (x, s) => ((x.remove entityId).2, s)

def applyAll (e : Embedder) (edits : List Edit) (p : EntityIndex × Shared) : EntityIndex × Shared :=
  edits.foldl (fun p d => d.apply e p) p

theorem applyAll_cons (e : Embedder) (d : Edit) (edits : List Edit) (p : EntityIndex × Shared) :
    applyAll e (d :: edits) p = applyAll e edits (d.apply e p) := rfl

theorem applyAll_append (e : Embedder) (edits more : List Edit) (p : EntityIndex × Shared) :
    applyAll e (edits ++ more) p = applyAll e more (applyAll e edits p) := List.foldl_append

/-- The change made to a list of records: a record of a known id takes the place of the earlier one. -/
def onRecords : Edit → List EntityRecord → List EntityRecord
  | add r, rs =>
      if rs.any fun o => o.entityId = r.entityId then
        rs.map fun o => if o.entityId = r.entityId then r else o
      else rs ++ [r]
  | remove entityId, rs => rs.filter fun o => o.entityId ≠ entityId

/-- The ids of the devices after a change: an id that is known keeps its place, a new one goes to the end. -/
def onIds : Edit → List String → List String
  | .add r, ids => if r.entityId ∈ ids then ids else ids ++ [r.entityId]
  | .remove entityId, ids => ids.filter fun id => id ≠ entityId

/-- The records that are left after some changes: the latest of each id that was not taken out since, in the
order in which the ids arrived. -/
def survivors (edits : List Edit) (rs : List EntityRecord) : List EntityRecord :=
  edits.foldl (fun rs d => d.onRecords rs) rs

theorem survivors_concat (edits : List Edit) (d : Edit) (rs : List EntityRecord) :
    survivors (edits ++ [d]) rs = d.onRecords (survivors edits rs) := List.foldl_concat ..

theorem survivors_append (edits more : List Edit) (rs : List EntityRecord) :
    survivors (edits ++ more) rs = survivors more (survivors edits rs) := List.foldl_append

theorem onRecords_add_of_not_mem {r : EntityRecord} {rs : List EntityRecord}
    (h : r.entityId ∉ rs.map (·.entityId)) : (add r).onRecords rs = rs ++ [r] := by
  refine if_neg fun hany => h ?_
  obtain ⟨o, ho, heq⟩ := List.any_eq_true.1 hany
  exact List.mem_map.2 ⟨o, ho, of_decide_eq_true heq⟩

theorem onRecords_add_of_mem {r : EntityRecord} {rs : List EntityRecord} (h : r.entityId ∈ rs.map (·.entityId)) :
    (add r).onRecords rs = rs.map fun o => if o.entityId = r.entityId then r else o := by
  obtain ⟨o, ho, heq⟩ := List.mem_map.1 h
  exact if_pos (List.any_eq_true.2 ⟨o, ho, decide_eq_true heq⟩)

/-- What there is after a record was added is this record, or of another device. -/
theorem mem_onRecords_add {r o : EntityRecord} {rs : List EntityRecord} (h : o ∈ (add r).onRecords rs) :
    o = r ∨ (o ∈ rs ∧ o.entityId ≠ r.entityId) := by
  by_cases hr : r.entityId ∈ rs.map (·.entityId)
  · rw [onRecords_add_of_mem hr] at h
    obtain ⟨k, hk, rfl⟩ := List.mem_map.1 h
    split
    · exact .inl rfl
    · rename_i hne
      exact .inr ⟨hk, hne⟩
  · rw [onRecords_add_of_not_mem hr] at h
    rcases List.mem_append.1 h with ho | ho
    · exact .inr ⟨ho, fun heq => hr (List.mem_map.2 ⟨o, ho, heq⟩)⟩
    · exact .inl (List.mem_singleton.1 ho)

theorem map_entityId_onRecords (d : Edit) (rs : List EntityRecord) :
    (d.onRecords rs).map (·.entityId) = d.onIds (rs.map (·.entityId)) := by
  cases d with
  | add r =>
    by_cases hr : r.entityId ∈ rs.map (·.entityId)
    · rw [onRecords_add_of_mem hr, onIds, if_pos hr, List.map_map]
      refine List.map_congr_left fun o _ => ?_
      rw [Function.comp_apply]
      split
      · rename_i hid
        exact hid.symm
      · rfl
    · rw [onRecords_add_of_not_mem hr, onIds, if_neg hr, List.map_append]
      rfl
  | remove id =>
    rw [onRecords, onIds, List.filter_map]
    rfl

theorem nodup_onRecords {rs : List EntityRecord} (h : (rs.map (·.entityId)).Nodup) (d : Edit) :
    ((d.onRecords rs).map (·.entityId)).Nodup := by
  rw [map_entityId_onRecords]
  cases d with
  | add r =>
    rw [onIds]
    split
    · exact h
    · rename_i hr
      exact List.concat_eq_append ▸ List.Nodup.concat hr h
  | remove id => exact h.filter _

theorem nodup_survivors (edits : List Edit) {rs : List EntityRecord} (h : (rs.map (·.entityId)).Nodup) :
    ((survivors edits rs).map (·.entityId)).Nodup := by
  induction edits generalizing rs with
  | nil => exact h
  | cons d edits ih => exact ih (nodup_onRecords h d)

/-- Records of distinct ids all survive. -/
theorem survivors_add (rs os : List EntityRecord) (h : ((os ++ rs).map (·.entityId)).Nodup) :
    survivors (rs.map .add) os = os ++ rs := by
  induction rs generalizing os with
  | nil => exact (List.append_nil os).symm
  | cons r rs ih =>
    have hnew : r.entityId ∉ os.map (·.entityId) := fun hr => by
      rw [List.map_append, List.nodup_append] at h
      exact h.2.2 _ hr _ (List.mem_map.2 ⟨r, List.mem_cons_self, rfl⟩) rfl
    rw [List.map_cons, survivors, List.foldl_cons, onRecords_add_of_not_mem hnew, ← survivors,
      ih (os ++ [r]) (by simpa using h), List.append_assoc]
    rfl

end Edit

/-- The entries are those of the records. -/
def Embedder.Lists (e : Embedder) (rs : List EntityRecord) (entries : Roster EntityEntry) : Prop :=
  entries.items = rs.map fun r => (r.entityId, e.entryOf r)

namespace Embedder.Lists

variable {e : Embedder} {rs : List EntityRecord} {entries : Roster EntityEntry}

theorem keys (L : e.Lists rs entries) : entries.keys = rs.map (·.entityId) := by
  rw [Roster.keys, L, List.map_map]
  rfl

theorem add (L : e.Lists rs entries) (h : (rs.map (·.entityId)).Nodup) (r : EntityRecord) :
    e.Lists ((Edit.add r).onRecords rs) (entries.put r.entityId (e.entryOf r)) := by
  have hmem : r.entityId ∈ entries.keys ↔ (rs.any fun o => o.entityId = r.entityId) = true := by
    simp [L.keys]
  rw [Lists, Roster.items_put (L.keys ▸ h), L, Edit.onRecords]
  by_cases hr : r.entityId ∈ entries.keys
  · rw [if_pos hr, if_pos (hmem.1 hr), List.map_map, List.map_map]
    refine List.map_congr_left fun o _ => ?_
    simp only [Function.comp_apply]
    split <;> rfl
  · rw [if_neg hr, if_neg fun hany => hr (hmem.2 hany), List.map_append]
    rfl

theorem remove (L : e.Lists rs entries) (id : String) :
    e.Lists ((Edit.remove id).onRecords rs) (entries.erase id) := by
  rw [Lists, Roster.erase, L, List.filter_map]
  rfl

end Embedder.Lists

namespace EntityIndex

variable {e : Embedder} {x y : EntityIndex} {s : Shared} {rs : List EntityRecord}

/-- The index that is built from some records, in their order. -/
def ofRecords (e : Embedder) (c : CacheSettings) (rs : List EntityRecord) (s : Shared) :
    EntityIndex × Shared :=
  rs.foldl (fun p r => p.1.add e r p.2) (.empty c, s)

theorem ofRecords_eq (e : Embedder) (c : CacheSettings) (rs : List EntityRecord) (s : Shared) :
    ofRecords e c rs s = Edit.applyAll e (rs.map .add) (.empty c, s) := by
  rw [ofRecords, Edit.applyAll, List.foldl_map]
  rfl

/-- A change to the devices changes their order as it changes a list of ids. -/
theorem Mirrors.order_apply (H : x.Mirrors) (e : Embedder) (d : Edit) (s : Shared) :
    (d.apply e (x, s)).1.order = d.onIds x.order := by
  cases d with
  | add r => exact H.order_store _
  | remove id => exact H.order_remove id

/-- After any changes an index is well built, lists what survives, and has no old rankings. -/
theorem edited_spec (he : e.Steady) (edits : List Edit) {x : EntityIndex} {s : Shared}
    {rs : List EntityRecord} (H : x.Built e) (L : e.Lists rs x.entries) (C : x.Current e)
    (hs : s.Coherent e) :
    (Edit.applyAll e edits (x, s)).1.Built e ∧
      e.Lists (Edit.survivors edits rs) (Edit.applyAll e edits (x, s)).1.entries ∧
      (Edit.applyAll e edits (x, s)).1.Current e := by
  induction edits generalizing x s rs with
  | nil => exact ⟨H, L, C⟩
  | cons d edits ih =>
    cases d with
    | add r =>
      obtain ⟨t, hadd, ht, -⟩ := add_spec he hs r x
      have L' : e.Lists ((Edit.add r).onRecords rs) (x.store (e.entryOf r)).entries := by
        rw [store_entries]
        exact L.add (L.keys ▸ H.mirrors.nodup) r
      rw [Edit.applyAll_cons, Edit.apply, hadd]
      exact ih (H.store he r) L' (current_of_entries_eq_nil (store_queries ..)) ht
    | remove id =>
      have L' : e.Lists ((Edit.remove id).onRecords rs) (x.remove id).2.entries := by
        rw [remove_entries]
        exact L.remove id
      exact ih (x := (x.remove id).2) (H.remove id) L' (C.remove id) hs

end EntityIndex

end DeviceNaming
