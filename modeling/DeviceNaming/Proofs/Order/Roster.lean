import DeviceNaming.Order.Roster
import Mathlib.Data.List.Basic

/-!
# Rosters as lists

A roster whose keys are distinct finds exactly the pairs that it lists (`Roster.find?_eq_some_iff`). Writing
replaces the value of a key where it stands or adds a pair at the end (`Roster.items_put`). Neither writing nor erasing
touches another key (`Roster.AgreeBut`).
-/

namespace DeviceNaming

namespace Roster

variable {α : Type} {r : Roster α}

theorem find?_eq_some_iff (h : r.keys.Nodup) {k : String} {v : α} :
    r.find? k = some v ↔ (k, v) ∈ r.items := by
  obtain ⟨items⟩ := r
  simp only [keys, find?] at h ⊢
  induction items with
  | nil => simp
  | cons p rest ih =>
    obtain ⟨j, w⟩ := p
    obtain ⟨hj, hrest⟩ := List.nodup_cons.1 h
    rw [lookup_cons_ite]
    by_cases hk : k = j
    · subst hk
      have hv : (k, v) ∉ rest := fun hm => hj (List.mem_map.2 ⟨_, hm, rfl⟩)
      simp [hv, eq_comm]
    · simp [hk, ih hrest]

/-- The order in which pairs of distinct keys are listed does not matter. -/
theorem find?_eq_of_perm {r r' : Roster α} (H : r.items.Perm r'.items) (h : r.keys.Nodup) (k : String) :
    r.find? k = r'.find? k := by
  have hkeys : r.keys.Perm r'.keys := H.map _
  have h' : r'.keys.Nodup := hkeys.nodup_iff.1 h
  refine Option.ext fun v => ?_
  rw [find?_eq_some_iff h, find?_eq_some_iff h', H.mem_iff]

theorem mem_values_of_find? {k : String} {v : α} (h : r.find? k = some v) : v ∈ r.values := by
  obtain ⟨items⟩ := r
  simp only [find?, values] at h ⊢
  induction items with
  | nil => cases h
  | cons p rest ih =>
    obtain ⟨j, w⟩ := p
    rw [lookup_cons_ite] at h
    split at h
    · cases h
      exact List.mem_cons_self
    · exact List.mem_cons_of_mem _ (ih h)

/-- A value that stands under a key of its own is found under it. -/
theorem find?_of_mem_values (h : r.keys.Nodup) {key : α → String}
    (own : ∀ {k v}, r.find? k = some v → key v = k) {v : α} (hv : v ∈ r.values) :
    r.find? (key v) = some v := by
  obtain ⟨⟨k, w⟩, hw, rfl⟩ := List.mem_map.1 hv
  have hfind : r.find? k = some w := (find?_eq_some_iff h).2 hw
  rw [own hfind]
  exact hfind

/-- Where each value stands under a key of its own, their keys are those of the roster. -/
theorem map_values (h : r.keys.Nodup) {key : α → String} (own : ∀ {k v}, r.find? k = some v → key v = k) :
    r.values.map key = r.keys := by
  rw [values, keys, List.map_map]
  exact List.map_congr_left fun p hp => own ((find?_eq_some_iff h).2 hp)

/-- Each value still stands under a key of its own when another is written under its own. -/
theorem own_put {key : α → String} (own : ∀ {k v}, r.find? k = some v → key v = k) (v : α) {k : String} {w : α}
    (h : (r.put (key v) v).find? k = some w) : key w = k := by
  rw [find?_put] at h
  split at h
  · rename_i hk
    cases h
    exact hk.symm
  · exact own h

/-- Looking up the keys one by one gives the values. -/
theorem filterMap_find?_keys (h : r.keys.Nodup) : r.keys.filterMap r.find? = r.values := by
  have hfind : ∀ p ∈ r.items, r.find? p.1 = some p.2 := fun p hp => (find?_eq_some_iff h).2 hp
  rw [keys, List.filterMap_map, values, ← List.filterMap_eq_map]
  exact List.filterMap_congr hfind

theorem length_values (r : Roster α) : r.values.length = r.size := List.length_map _

theorem find?_eq_none_iff {k : String} : r.find? k = none ↔ k ∉ r.keys := by
  rw [← isSome_find?]
  cases r.find? k <;> simp

theorem erase_eq_self {k : String} (h : r.find? k = none) : r.erase k = r := by
  rw [find?_eq_none_iff] at h
  have hkept : (r.items.filter fun p => p.1 ≠ k) = r.items :=
    List.filter_eq_self.2 fun p hp => decide_eq_true fun hk => h (List.mem_map.2 ⟨p, hp, hk⟩)
  rw [erase, hkept]

theorem length_keys (r : Roster α) : r.keys.length = r.size := List.length_map _

theorem size_put (r : Roster α) (k : String) (v : α) :
    (r.put k v).size = if r.contains k then r.size else r.size + 1 := by
  rw [← length_keys, keys_put, contains, ← length_keys]
  by_cases hk : k ∈ r.keys
  · rw [if_pos hk, if_pos ((isSome_find? r k).2 hk)]
  · rw [if_neg hk, if_neg (mt (isSome_find? r k).1 hk), List.length_append]
    rfl

/-- Of distinct keys, erasing one that is present leaves one less. -/
theorem size_erase (h : r.keys.Nodup) {k : String} (hk : r.contains k = true) :
    (r.erase k).size + 1 = r.size := by
  have hmem : k ∈ r.keys := (isSome_find? r k).1 hk
  have herase : (r.erase k).keys = r.keys.erase k := by
    rw [keys_erase, h.erase_eq_filter]
    exact List.filter_congr fun j _ => by by_cases hj : j = k <;> simp [hj]
  rw [← length_keys, herase, List.length_erase_of_mem hmem, ← length_keys]
  have hpos := List.length_pos_of_mem hmem
  omega

theorem mem_values_put {k : String} {v w : α} (h : w ∈ (r.put k v).values) : w = v ∨ w ∈ r.values := by
  obtain ⟨items⟩ := r
  simp only [values, put] at h ⊢
  induction items with
  | nil => exact .inl (by simpa [putItems] using h)
  | cons p rest ih =>
    obtain ⟨j, u⟩ := p
    simp only [putItems] at h
    split at h
    · rcases List.mem_cons.1 h with rfl | h
      · exact .inl rfl
      · exact .inr (List.mem_cons_of_mem _ h)
    · rcases List.mem_cons.1 h with rfl | h
      · exact .inr List.mem_cons_self
      · exact (ih h).imp_right (List.mem_cons_of_mem _)

theorem mem_values_erase {k : String} {w : α} (h : w ∈ (r.erase k).values) : w ∈ r.values := by
  obtain ⟨p, hp, rfl⟩ := List.mem_map.1 h
  exact List.mem_map.2 ⟨p, (List.mem_filter.1 hp).1, rfl⟩

theorem putItems_eq (k : String) (v : α) {items : List (String × α)} (h : (items.map (·.1)).Nodup) :
    putItems k v items =
      if k ∈ items.map (·.1) then items.map fun p => if p.1 = k then (k, v) else p
      else items ++ [(k, v)] := by
  induction items with
  | nil => rfl
  | cons p rest ih =>
    obtain ⟨j, w⟩ := p
    obtain ⟨hj, hrest⟩ := List.nodup_cons.1 h
    by_cases hk : j = k
    · subst hk
      have hsame : (rest.map fun p => if p.1 = j then (j, v) else p) = rest := by
        conv => rhs; rw [← List.map_id rest]
        exact List.map_congr_left fun p hp => if_neg fun hp' => hj (List.mem_map.2 ⟨p, hp, hp'⟩)
      simp [putItems, hsame]
    · have hne : k ≠ j := fun h => hk h.symm
      simp only [putItems, if_neg hk, ih hrest, List.map_cons, List.mem_cons, hne, false_or]
      split <;> rfl

/-- Writing under distinct keys: the pair of the key is replaced where it stands, or a pair is added. -/
theorem items_put (h : r.keys.Nodup) (k : String) (v : α) :
    (r.put k v).items =
      if k ∈ r.keys then r.items.map fun p => if p.1 = k then (k, v) else p else r.items ++ [(k, v)] :=
  putItems_eq k v h

/-- Pairs that are kept by a test are found if the test keeps them. -/
theorem find?_filter (h : r.keys.Nodup) (p : String × α → Bool) (k : String) :
    (⟨r.items.filter p⟩ : Roster α).find? k = (r.find? k).filter fun v => p (k, v) := by
  have hkept : (⟨r.items.filter p⟩ : Roster α).keys.Nodup := h.sublist (List.filter_sublist.map _)
  ext v
  rw [find?_eq_some_iff hkept, List.mem_filter, Option.filter_eq_some_iff, find?_eq_some_iff h]

/-- Under all keys but one, two rosters hold the same in the same order. -/
structure AgreeBut (key : String) (r r' : Roster α) : Prop where
  find? : ∀ k, k ≠ key → r'.find? k = r.find? k
  keys : (r'.keys.filter fun k => k ≠ key) = r.keys.filter fun k => k ≠ key

theorem AgreeBut.refl (key : String) (r : Roster α) : r.AgreeBut key r := ⟨fun _ _ => rfl, rfl⟩

theorem agreeBut_put (r : Roster α) (key : String) (v : α) : r.AgreeBut key (r.put key v) := by
  refine ⟨fun k hk => by rw [find?_put, if_neg hk], ?_⟩
  rw [keys_put]
  split
  · rfl
  · simp

theorem agreeBut_erase (r : Roster α) (key : String) : r.AgreeBut key (r.erase key) := by
  refine ⟨fun k hk => by rw [find?_erase, if_neg hk], ?_⟩
  rw [keys_erase, List.filter_filter]
  simp

end Roster

namespace Postings

variable {p : Postings}

theorem mem_ids_foldl_link (names : List String) (id k x : String) :
    x ∈ ids (names.foldl (fun p name => link p name id) p) k ↔ x ∈ p.ids k ∨ (k ∈ names ∧ x = id) := by
  induction names generalizing p with
  | nil => simp
  | cons name names ih =>
    rw [List.foldl_cons, ih, mem_ids_link, List.mem_cons, or_and_right, or_assoc]

theorem mem_ids_foldl_unlink (names : List String) (id k x : String) :
    x ∈ ids (names.foldl (fun p name => unlink p name id) p) k ↔
      x ∈ p.ids k ∧ ¬(k ∈ names ∧ x = id) := by
  induction names generalizing p with
  | nil => simp
  | cons name names ih =>
    rw [List.foldl_cons, ih, mem_ids_unlink, List.mem_cons, or_and_right, not_or, and_assoc]

end Postings

end DeviceNaming
