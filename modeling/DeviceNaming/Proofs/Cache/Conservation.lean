import DeviceNaming.Proofs.Cache.History

/-!
# Nothing is lost from a cache uncounted

An entry comes into a cache by a write under a key that is not held, and leaves it in one of four ways: it is driven
out, found too old by a lookup, swept away, or removed. Each way is counted, and a write under a key that is held is
none of them. So the entries that came are those that are held and those that left: `CacheHistory.conserved`.
-/

namespace DeviceNaming

namespace BoundedCache

variable {κ α : Type}

/-- The entries that are held and those that were driven out or found too old. -/
def accounted (c : BoundedCache κ α) : Nat := c.size + c.counters.evictions + c.counters.expirations

def lookups (c : BoundedCache κ α) : Nat := c.counters.hits + c.counters.misses

/-- Sweeping leaves nothing that is too old, and what it drops is counted. -/
theorem cleanup_spec (c : BoundedCache κ α) (now : Nat) :
    (∀ x ∈ (c.cleanup now).2.entries, WithinLimit c.ttl x.storedAt now) ∧
      (c.cleanup now).2.counters.expirations = c.counters.expirations + (c.cleanup now).1 := by
  refine ⟨fun x hx => ?_, rfl⟩
  have hnew := (List.mem_filter.1 hx).2
  rw [← expired_eq_false_iff]
  simpa using hnew

theorem accounted_cleanup (c : BoundedCache κ α) (now : Nat) : (c.cleanup now).2.accounted = c.accounted := by
  have hle : (c.entries.filter fun x => !c.expired x.storedAt now).length ≤ c.entries.length :=
    List.length_filter_le _ _
  simp only [accounted, cleanup, size]
  omega

variable [DecidableEq κ] {c : BoundedCache κ α} {k : κ} {x : CacheEntry κ α}

theorem contains_iff : c.contains k = true ↔ k ∈ c.keys := by
  simp [contains, find?, keys]

theorem contains_of_find? (h : c.find? k = some x) : c.contains k = true :=
  contains_iff.2 (mem_keys_of_find? h)

/-- A cache without a key is smaller by one if it holds the key. -/
theorem length_without (hnodup : c.keys.Nodup) (k : κ) :
    (c.without k).length + (c.contains k).toNat = c.size := by
  have hothers : (c.without k).length = c.keys.countP fun j => decide ¬decide (j = k) = true := by
    rw [← List.length_map (·.key), map_key_without, List.countP_eq_length_filter]
    simp
  have hsame : (c.contains k).toNat = c.keys.countP fun j => decide (j = k) := by
    have hcount : c.keys.countP (fun j => decide (j = k)) = if k ∈ c.keys then 1 else 0 := hnodup.count
    rw [hcount]
    by_cases hk : k ∈ c.keys
    · rw [contains_iff.2 hk, if_pos hk]
      rfl
    · rw [Bool.eq_false_iff.2 fun h => hk (contains_iff.1 h), if_neg hk]
      rfl
  rw [hothers, hsame, ← length_keys, List.length_eq_countP_add_countP (fun j => decide (j = k))]
  omega

theorem accounted_put (c : BoundedCache κ α) (now : Nat) (k : κ) (v : α) :
    (c.put now k v).accounted + c.size = c.accounted + (c.without k).length + 1 := by
  simp only [accounted, put, size, List.length_take, List.length_cons]
  omega

theorem accounted_remove (c : BoundedCache κ α) (k : κ) :
    (c.remove k).2.accounted + c.size = c.accounted + (c.without k).length := by
  simp only [accounted, remove, size]
  omega

theorem accounted_get (hnodup : c.keys.Nodup) (now : Nat) (k : κ) : (c.get now k).2.accounted = c.accounted := by
  have hsize := length_without hnodup k
  obtain ⟨-, hget⟩ | ⟨x, hfind, ⟨-, hget⟩ | ⟨-, hget⟩⟩ := c.get_cases now k
  · rw [hget]
    rfl
  · rw [contains_of_find? hfind, Bool.toNat_true] at hsize
    simp only [hget, accounted, size] at hsize ⊢
    omega
  · rw [contains_of_find? hfind, Bool.toNat_true] at hsize
    simp only [hget, accounted, size, List.length_cons] at hsize ⊢
    omega

theorem lookups_get (c : BoundedCache κ α) (now : Nat) (k : κ) : (c.get now k).2.lookups = c.lookups + 1 := by
  obtain ⟨-, hget⟩ | ⟨x, -, ⟨-, hget⟩ | ⟨-, hget⟩⟩ := c.get_cases now k <;>
    simp only [hget, lookups] <;> omega

end BoundedCache

/-! ## What a use brings and takes -/

namespace CacheUse

variable {κ α : Type} [DecidableEq κ]

def isLookup : CacheUse κ α → BoundedCache κ α → Bool
  | get _, _ => true
  | _, _ => false

/-- Does it write under a key that is not held? -/
def brings : CacheUse κ α → BoundedCache κ α → Bool
  | put k _, c => !c.contains k
  | _, _ => false

/-- Does it take a value out of the cache? -/
def takes : CacheUse κ α → BoundedCache κ α → Bool
  | remove k, c => (c.remove k).1.isSome
  | _, _ => false

variable {u : CacheUse κ α} {c : BoundedCache κ α}

theorem lookups_apply (hu : u ≠ .clear) (now : Nat) (c : BoundedCache κ α) :
    (u.apply now c).lookups = c.lookups + (u.isLookup c).toNat := by
  cases u with
  | get k => exact c.lookups_get now k
  | clear => exact absurd rfl hu
  | _ => rfl

/-- What comes in is held, or it is counted when it leaves, or it is taken. -/
theorem accounted_apply (hu : u ≠ .clear) (hnodup : c.keys.Nodup) (now : Nat) :
    (u.apply now c).accounted + (u.takes c).toNat = c.accounted + (u.brings c).toNat := by
  cases u with
  | get k => exact BoundedCache.accounted_get hnodup now k
  | put k v =>
    have hput := c.accounted_put now k v
    have hsize := BoundedCache.length_without hnodup k
    have hbrings : (!c.contains k).toNat + (c.contains k).toNat = 1 := by cases c.contains k <;> rfl
    simp only [apply, takes, brings, Bool.toNat_false]
    omega
  | remove k =>
    have hremove := c.accounted_remove k
    have hsize := BoundedCache.length_without hnodup k
    have htakes : (c.remove k).1.isSome = c.contains k := Option.isSome_map
    simp only [apply, takes, brings, Bool.toNat_false, htakes]
    omega
  | contains k => rfl
  | cleanup => exact c.accounted_cleanup now
  | clear => exact absurd rfl hu

end CacheUse

/-! ## Histories -/

namespace CacheHistory

variable {κ α : Type} [DecidableEq κ]

/-- How many steps since the cache was last cleared pass a test of the use and of the cache that it met. -/
def countSinceClear (maxSize : Nat) (ttl : Option Nat) (test : CacheUse κ α → BoundedCache κ α → Bool) :
    CacheHistory κ α → Nat
  | [] => 0
  | ⟨_, .clear⟩ :: _ => 0
  | s :: past => countSinceClear maxSize ttl test past + (test s.use (cache maxSize ttl past)).toNat

variable {maxSize : Nat} {ttl : Option Nat}

theorem countSinceClear_cons {u : CacheUse κ α} (hu : u ≠ .clear) (test : CacheUse κ α → BoundedCache κ α → Bool)
    (now : Nat) (past : CacheHistory κ α) :
    countSinceClear maxSize ttl test (⟨now, u⟩ :: past) =
      countSinceClear maxSize ttl test past + (test u (past.cache maxSize ttl)).toNat := by
  cases u with
  | clear => exact absurd rfl hu
  | _ => simp only [countSinceClear]

theorem lookups_cache (past : CacheHistory κ α) :
    (past.cache maxSize ttl).lookups = countSinceClear maxSize ttl CacheUse.isLookup past := by
  induction past with
  | nil => rfl
  | cons s past ih =>
    obtain ⟨now, u⟩ := s
    by_cases hu : u = .clear
    · subst hu
      simp only [countSinceClear]
      rfl
    · rw [countSinceClear_cons hu, ← ih]
      exact CacheUse.lookups_apply hu now _

theorem accounted_cache (past : CacheHistory κ α) :
    (past.cache maxSize ttl).accounted + countSinceClear maxSize ttl CacheUse.takes past =
      countSinceClear maxSize ttl CacheUse.brings past := by
  induction past with
  | nil => rfl
  | cons s past ih =>
    obtain ⟨now, u⟩ := s
    by_cases hu : u = .clear
    · subst hu
      simp only [countSinceClear]
      rfl
    · have hnodup : (cache maxSize ttl past).keys.Nodup := nodup_keys past
      have hstep := CacheUse.accounted_apply hu hnodup now
      rw [countSinceClear_cons hu, countSinceClear_cons hu, cache]
      dsimp only
      omega

/-- After any history, the keys are distinct and no more than fit; since the cache was last cleared every lookup was
a hit or a miss, and every entry that came is held, was driven out, grew too old, or was removed; and sweeping
leaves nothing that is too old and counts what it drops. -/
theorem conserved (maxSize : Nat) (ttl : Option Nat) (past : CacheHistory κ α) :
    (past.cache maxSize ttl).keys.Nodup ∧
      (past.cache maxSize ttl).size ≤ max maxSize 1 ∧
      (past.cache maxSize ttl).counters.hits + (past.cache maxSize ttl).counters.misses =
        countSinceClear maxSize ttl CacheUse.isLookup past ∧
      countSinceClear maxSize ttl CacheUse.brings past =
        (past.cache maxSize ttl).size + (past.cache maxSize ttl).counters.evictions +
          (past.cache maxSize ttl).counters.expirations + countSinceClear maxSize ttl CacheUse.takes past ∧
      ∀ now,
        (∀ x ∈ ((past.cache maxSize ttl).cleanup now).2.entries, WithinLimit ttl x.storedAt now) ∧
        ((past.cache maxSize ttl).cleanup now).2.counters.expirations =
          (past.cache maxSize ttl).counters.expirations + ((past.cache maxSize ttl).cleanup now).1 := by
  refine ⟨nodup_keys past, size_le past, lookups_cache past, (accounted_cache past).symm, fun now => ?_⟩
  have hcleanup := (past.cache maxSize ttl).cleanup_spec now
  rwa [ttl_cache] at hcleanup

end CacheHistory

end DeviceNaming
