import DeviceNaming.Entity.Index
import DeviceNaming.Proofs.Order.Roster

/-!
# The order and the reverse indexes mirror the entries

In an index that was built by adding and taking out devices, the order lists the devices that have an entry, each of
them once, and an id stands under a name or an area exactly if the entry of that id bears the name or lies in the area
(`EntityIndex.Mirrors`). Writing an entry first takes away what the earlier entry of the device left
(`EntityIndex.forget`), so that no id stays behind; only a device without one is added to the order.
-/

namespace DeviceNaming

/-- Every variant of a record comes from one of its names and the lookup of this name. -/
theorem EntityEntry.exists_of_mem_variants {r : EntityRecord} {names : List (VariantTag × String)}
    {found : List Lookup} {v : EntityVariant} (h : v ∈ (ofRecord r names found).variants) :
    ∃ n ∈ names, ∃ l ∈ found, v = ⟨r.entityId, n.2, n.1, l.embedding?, r.areaId, r.areaName⟩ := by
  rw [ofRecord, ← List.map_uncurry_zip_eq_zipWith] at h
  obtain ⟨⟨n, l⟩, hnl, rfl⟩ := List.mem_map.1 h
  exact ⟨n, (List.of_mem_zip hnl).1, l, (List.of_mem_zip hnl).2, rfl⟩

/-- Every embedding of a record was found by a lookup. -/
theorem EntityEntry.ready_of_mem_embeddings {r : EntityRecord} {names : List (VariantTag × String)}
    {found : List Lookup} {v : Embedding} (h : v ∈ (ofRecord r names found).embeddings) :
    .ready v ∈ found := by
  obtain ⟨variant, hvariant, hv⟩ := List.mem_filterMap.1 h
  obtain ⟨n, -, l, hl, rfl⟩ := exists_of_mem_variants hvariant
  exact Lookup.embedding?_eq_some_iff.1 hv ▸ hl

namespace EntityIndex

variable {x y : EntityIndex} {e : EntityEntry}

/-- Every entry is stored once, under its own id, and the order and the reverse indexes mirror the entries. -/
structure Mirrors (x : EntityIndex) : Prop where
  order : x.order = x.entries.keys
  nodup : x.entries.keys.Nodup
  own : ∀ {id e}, x.entries.find? id = some e → e.entityId = id
  names : ∀ {name id}, id ∈ x.names.ids name ↔ ∃ e, x.entries.find? id = some e ∧ name ∈ e.normalNames
  places : ∀ {a id}, id ∈ x.places.ids a ↔ ∃ e, x.entries.find? id = some e ∧ e.areaId = some a

/-- Two indexes of the same devices. -/
structure Alike (x y : EntityIndex) : Prop where
  order : y.order = x.order
  entries : y.entries = x.entries
  names : y.names = x.names
  places : y.places = x.places

theorem Alike.refl (x : EntityIndex) : x.Alike x := ⟨rfl, rfl, rfl, rfl⟩

theorem Alike.ordered (A : x.Alike y) : y.ordered = x.ordered := by
  rw [EntityIndex.ordered, A.order, A.entries, EntityIndex.ordered]

/-- What is in the order of the devices is an entry. -/
theorem mem_values_of_mem_ordered (he : e ∈ x.ordered) : e ∈ x.entries.values := by
  obtain ⟨id, -, hfind⟩ := List.mem_filterMap.1 he
  exact Roster.mem_values_of_find? hfind

/-! ## Links -/

theorem mem_names_link {name id : String} :
    id ∈ (x.link e).names.ids name ↔ id ∈ x.names.ids name ∨ (name ∈ e.normalNames ∧ id = e.entityId) :=
  Postings.mem_ids_foldl_link ..

theorem mem_names_unlink {name id : String} :
    id ∈ (x.unlink e).names.ids name ↔
      id ∈ x.names.ids name ∧ ¬(name ∈ e.normalNames ∧ id = e.entityId) :=
  Postings.mem_ids_foldl_unlink ..

theorem mem_places_link {a id : String} :
    id ∈ (x.link e).places.ids a ↔ id ∈ x.places.ids a ∨ (e.areaId = some a ∧ id = e.entityId) := by
  unfold link
  dsimp only
  split
  · rename_i b hb
    rw [Postings.mem_ids_link, hb, Option.some.injEq, @eq_comm _ b]
  · rename_i hb
    simp [hb]

theorem mem_places_unlink {a id : String} :
    id ∈ (x.unlink e).places.ids a ↔ id ∈ x.places.ids a ∧ ¬(e.areaId = some a ∧ id = e.entityId) := by
  unfold unlink
  dsimp only
  split
  · rename_i b hb
    rw [Postings.mem_ids_unlink, hb, Option.some.injEq, @eq_comm _ b]
  · rename_i hb
    simp [hb]

/-- The index without the links of a device. -/
def forget (x : EntityIndex) (id : String) : EntityIndex :=
  match x.entries.find? id with
  | some old => x.unlink old
  | none => x

/-! ## Changes -/

theorem store_order (x : EntityIndex) (e : EntityEntry) :
    (x.store e).order = if x.entries.contains e.entityId then x.order else x.order ++ [e.entityId] := by
  rw [Roster.contains, store]
  cases x.entries.find? e.entityId <;> rfl

theorem store_entries (x : EntityIndex) (e : EntityEntry) :
    (x.store e).entries = x.entries.put e.entityId e := by
  rw [store]
  cases x.entries.find? e.entityId <;> rfl

theorem store_names (x : EntityIndex) (e : EntityEntry) :
    (x.store e).names = ((x.forget e.entityId).link e).names := by
  rw [store, forget]
  cases x.entries.find? e.entityId <;> rfl

theorem store_places (x : EntityIndex) (e : EntityEntry) :
    (x.store e).places = ((x.forget e.entityId).link e).places := by
  rw [store, forget]
  cases x.entries.find? e.entityId <;> rfl

theorem store_queries (x : EntityIndex) (e : EntityEntry) : (x.store e).queries.entries = [] := rfl

theorem remove_of_find?_eq_none {id : String} (h : x.entries.find? id = none) : x.remove id = (none, x) := by
  rw [remove, h]

theorem remove_of_find? {id : String} (h : x.entries.find? id = some e) :
    x.remove id = (some e, { x.forget id with
      order := x.order.filter fun i => i ≠ id
      entries := x.entries.erase id }.clearQueries) := by
  rw [remove, forget, h]
  rfl

/-- What is left when a device is taken out: without the device nothing changes, the rankings included. -/
theorem remove_cases (x : EntityIndex) (id : String) :
    (x.entries.find? id = none ∧ (x.remove id).2 = x) ∨
      ((x.remove id).2.entries = x.entries.erase id ∧ (x.remove id).2.queries.entries = []) := by
  cases h : x.entries.find? id with
  | none => exact .inl ⟨rfl, by rw [remove_of_find?_eq_none h]⟩
  | some e =>
    rw [remove_of_find? h]
    exact .inr ⟨rfl, rfl⟩

theorem remove_entries (x : EntityIndex) (id : String) :
    (x.remove id).2.entries = x.entries.erase id := by
  rcases x.remove_cases id with ⟨hnone, h⟩ | ⟨h, -⟩
  · rw [h, Roster.erase_eq_self hnone]
  · exact h

namespace Mirrors

theorem of_alike (H : x.Mirrors) (A : x.Alike y) : y.Mirrors := by
  obtain ⟨ho, he, hn, hp⟩ := A
  constructor
  · rw [ho, he]; exact H.order
  · rw [he]; exact H.nodup
  · rw [he]; exact H.own
  · rw [he, hn]; exact H.names
  · rw [he, hp]; exact H.places

theorem of_empty (ho : x.order = []) (he : x.entries = .empty) (hn : x.names = .empty) (hp : x.places = .empty) :
    x.Mirrors := by
  constructor
  · rw [ho, he]; rfl
  · rw [he]; exact List.nodup_nil
  · rw [he]; exact nofun
  · rw [he, hn]; simp [Postings.ids]
  · rw [he, hp]; simp [Postings.ids]

theorem mem_order (H : x.Mirrors) {id : String} : id ∈ x.order ↔ ∃ e, x.entries.find? id = some e := by
  rw [H.order, ← Roster.isSome_find?, Option.isSome_iff_exists]

theorem nodup_order (H : x.Mirrors) : x.order.Nodup := H.order ▸ H.nodup

/-- In the order of the devices stand all entries. -/
theorem ordered_eq (H : x.Mirrors) : x.ordered = x.entries.values := by
  rw [ordered, H.order]
  exact Roster.filterMap_find?_keys H.nodup

/-- A device that has an entry keeps its place, a new one goes to the end. -/
theorem order_store (H : x.Mirrors) (e : EntityEntry) :
    (x.store e).order = if e.entityId ∈ x.order then x.order else x.order ++ [e.entityId] := by
  rw [store_order, H.order]
  exact if_congr (Roster.isSome_find? ..) rfl rfl

theorem order_remove (H : x.Mirrors) (id : String) :
    (x.remove id).2.order = x.order.filter fun i => i ≠ id := by
  cases hfind : x.entries.find? id with
  | some e =>
    rw [remove_of_find? hfind]
    rfl
  | none =>
    have hne : ∀ i ∈ x.order, decide (i ≠ id) = true := fun i hi => by
      obtain ⟨e, he⟩ := H.mem_order.1 hi
      exact decide_eq_true fun hid => by rw [hid, hfind] at he; cases he
    rw [remove_of_find?_eq_none hfind, List.filter_eq_self.2 hne]

theorem find?_entityId (H : x.Mirrors) (he : e ∈ x.entries.values) :
    x.entries.find? e.entityId = some e :=
  Roster.find?_of_mem_values H.nodup H.own he

/-- The entries stand in the order of their ids. -/
theorem map_entityId (H : x.Mirrors) : x.ordered.map (·.entityId) = x.order := by
  rw [H.ordered_eq, H.order]
  exact Roster.map_values H.nodup H.own

theorem mem_names_forget (H : x.Mirrors) (i : String) {name id : String} :
    id ∈ (x.forget i).names.ids name ↔
      id ≠ i ∧ ∃ e, x.entries.find? id = some e ∧ name ∈ e.normalNames := by
  unfold forget
  split
  · rename_i old hold
    rw [mem_names_unlink, H.names, H.own hold]
    by_cases hid : id = i
    · subst hid
      simp [hold]
    · simp [hid]
  · rename_i hnone
    rw [H.names]
    by_cases hid : id = i
    · subst hid
      simp [hnone]
    · simp [hid]

theorem mem_places_forget (H : x.Mirrors) (i : String) {a id : String} :
    id ∈ (x.forget i).places.ids a ↔
      id ≠ i ∧ ∃ e, x.entries.find? id = some e ∧ e.areaId = some a := by
  unfold forget
  split
  · rename_i old hold
    rw [mem_places_unlink, H.places, H.own hold]
    by_cases hid : id = i
    · subst hid
      simp [hold]
    · simp [hid]
  · rename_i hnone
    rw [H.places]
    by_cases hid : id = i
    · subst hid
      simp [hnone]
    · simp [hid]

theorem store (H : x.Mirrors) (e : EntityEntry) : (x.store e).Mirrors := by
  constructor
  · rw [H.order_store, store_entries, Roster.keys_put, H.order]
  · rw [store_entries]
    exact Roster.nodup_keys_put H.nodup _ _
  · intro id e' h
    rw [store_entries] at h
    exact Roster.own_put H.own e h
  · intro name id
    rw [store_entries, Roster.find?_put, store_names, mem_names_link, H.mem_names_forget]
    by_cases hid : id = e.entityId <;> simp [hid]
  · intro a id
    rw [store_entries, Roster.find?_put, store_places, mem_places_link, H.mem_places_forget]
    by_cases hid : id = e.entityId <;> simp [hid]

theorem remove (H : x.Mirrors) (i : String) : (x.remove i).2.Mirrors := by
  have horder := H.order_remove i
  cases hfind : x.entries.find? i with
  | none =>
    rw [remove_of_find?_eq_none hfind]
    exact H
  | some old =>
    rw [remove_of_find? hfind] at horder ⊢
    constructor
    · rw [horder, H.order]
      exact (Roster.keys_erase ..).symm
    · exact Roster.nodup_keys_erase H.nodup i
    · intro id e h
      change (x.entries.erase i).find? id = some e at h
      rw [Roster.find?_erase] at h
      split at h
      · cases h
      · exact H.own h
    · intro name id
      change id ∈ (x.forget i).names.ids name ↔ ∃ e, (x.entries.erase i).find? id = some e ∧ _
      rw [H.mem_names_forget, Roster.find?_erase]
      by_cases hid : id = i <;> simp [hid]
    · intro a id
      change id ∈ (x.forget i).places.ids a ↔ ∃ e, (x.entries.erase i).find? id = some e ∧ _
      rw [H.mem_places_forget, Roster.find?_erase]
      by_cases hid : id = i <;> simp [hid]

end Mirrors

end EntityIndex

end DeviceNaming
