import DeviceNaming.Cache.Bounded

/-!
# What a bounded cache holds

A property of keys and values that every written pair has is a property of every pair that the cache holds
(`BoundedCache.Holds`), whatever is dropped for age or for want of room, and so of every pair that is read
(`BoundedCache.Holds.of_get`).
-/

namespace DeviceNaming.BoundedCache

variable {κ α : Type} {P : κ → α → Prop} {c : BoundedCache κ α}

/-- Every entry has the property. -/
def Holds (P : κ → α → Prop) (c : BoundedCache κ α) : Prop := ∀ e ∈ c.entries, P e.key e.value

theorem holds_of_entries_eq_nil (h : c.entries = []) : c.Holds P := by
  intro e he
  rw [h] at he
  cases he

namespace Holds

theorem clear : c.clear.Holds P := holds_of_entries_eq_nil rfl

theorem cleanup (H : c.Holds P) (now : Nat) : (c.cleanup now).2.Holds P :=
  fun e he => H e (List.mem_filter.1 he).1

variable [DecidableEq κ]

theorem mem_without {e : CacheEntry κ α} {k : κ} (h : e ∈ c.without k) : e ∈ c.entries :=
  (List.mem_filter.1 h).1

theorem get (H : c.Holds P) (now : Nat) (k : κ) : (c.get now k).2.Holds P := by
  unfold BoundedCache.get
  split
  · exact H
  · rename_i e h
    split
    · exact fun e' he => H e' (mem_without he)
    · intro e' he
      rcases List.mem_cons.1 he with rfl | he
      · exact H _ (List.mem_of_find?_eq_some h)
      · exact H e' (mem_without he)

/-- What a lookup finds has the property. -/
theorem of_get (H : c.Holds P) {now : Nat} {k : κ} {v : α} (h : (c.get now k).1 = some v) : P k v := by
  unfold BoundedCache.get at h
  split at h
  · cases h
  · rename_i e hfind
    split at h
    · cases h
    · cases h
      have hkey := key_of_find? hfind
      exact hkey ▸ H e (List.mem_of_find?_eq_some hfind)

theorem put (H : c.Holds P) {k : κ} {v : α} (h : P k v) (now : Nat) : (c.put now k v).Holds P := by
  intro e he
  rcases List.mem_cons.1 (List.mem_of_mem_take he) with rfl | he
  · exact h
  · exact H e (mem_without he)

end Holds

end DeviceNaming.BoundedCache
