import DeviceNaming.Proofs.Order.Roster

/-!
# Postings have no empty lists

Linking and unlinking leave no key without ids and no id twice under a key (`Postings.Proper`). So the keys of
postings are exactly those under which some id stands (`Postings.Proper.mem_keys_iff`).
-/

namespace DeviceNaming.Postings

variable {p : Postings}

/-- Each key has one list of ids, which is not empty and has no id twice. -/
structure Proper (p : Postings) : Prop where
  distinct : p.keys.Nodup
  lists : ∀ {key ids}, p.find? key = some ids → ids ≠ [] ∧ ids.Nodup

theorem proper_empty : Proper .empty := ⟨List.nodup_nil, nofun⟩

namespace Proper

theorem nodup_ids (H : p.Proper) (key : String) : (p.ids key).Nodup := by
  rw [ids]
  cases h : p.find? key with
  | none => exact List.nodup_nil
  | some found => exact (H.lists h).2

theorem mem_keys_iff (H : p.Proper) {key : String} : key ∈ p.keys ↔ ∃ id, id ∈ p.ids key := by
  rw [← Roster.isSome_find?, ids]
  cases h : p.find? key with
  | none => simp
  | some found => simpa using List.exists_mem_of_ne_nil found (H.lists h).1

theorem put (H : p.Proper) (key : String) {ids : List String} (hne : ids ≠ []) (hnodup : ids.Nodup) :
    Proper (Roster.put p key ids) := by
  refine ⟨Roster.nodup_keys_put H.distinct _ _, fun {k found} h => ?_⟩
  rw [Roster.find?_put] at h
  split at h
  · cases h
    exact ⟨hne, hnodup⟩
  · exact H.lists h

theorem erase (H : p.Proper) (key : String) : Proper (Roster.erase p key) := by
  refine ⟨Roster.nodup_keys_erase H.distinct _, fun {k found} h => ?_⟩
  rw [Roster.find?_erase] at h
  split at h
  · cases h
  · exact H.lists h

theorem link (H : p.Proper) (key id : String) : (p.link key id).Proper := by
  unfold Postings.link
  split
  · exact H
  · rename_i hid
    refine H.put key (by simp) (List.nodup_append.2 ⟨H.nodup_ids key, by simp, ?_⟩)
    rintro x hx y hy rfl
    exact hid (List.mem_singleton.1 hy ▸ hx)

theorem unlink (H : p.Proper) (key id : String) : (p.unlink key id).Proper := by
  unfold Postings.unlink
  split
  · exact H
  · rename_i ids hids
    dsimp only
    split
    · exact H.erase key
    · rename_i hleft
      exact H.put key (fun h => hleft (List.isEmpty_iff.2 h)) ((H.lists hids).2.filter _)

theorem foldl_link (H : p.Proper) (names : List String) (id : String) :
    Proper (names.foldl (fun p name => Postings.link p name id) p) :=
  List.foldlRecOn names _ H fun _ H name _ => H.link name id

theorem foldl_unlink (H : p.Proper) (names : List String) (id : String) :
    Proper (names.foldl (fun p name => Postings.unlink p name id) p) :=
  List.foldlRecOn names _ H fun _ H name _ => H.unlink name id

end Proper

end DeviceNaming.Postings
