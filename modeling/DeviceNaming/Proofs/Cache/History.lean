import DeviceNaming.Proofs.Cache.Bounded
import Mathlib.Data.List.Nodup

/-!
# Histories of a cache

A history is what was done to a cache, and when, the latest first. `CacheHistory.cache` is the cache that it leaves
of an empty one with a bound and a time limit.

What a single use does to the entries is said once, by `CacheUse.effect`: it touches a key, whose entry comes to the
front and may drive others out, or it drops entries where they stand. So no key is ever held twice
(`CacheHistory.nodup_keys`), and no more keys than fit (`CacheHistory.size_le`).
-/

namespace DeviceNaming

/-- What can be done to a cache. -/
inductive CacheUse (κ α : Type) where
  | get (k : κ)
  | put (k : κ) (v : α)
  | remove (k : κ)
  | contains (k : κ)
  | cleanup
  | clear
deriving DecidableEq, Repr

structure CacheStep (κ α : Type) where
  now : Nat
  use : CacheUse κ α
deriving DecidableEq, Repr

/-- What was done to a cache, the latest first. -/
abbrev CacheHistory (κ α : Type) := List (CacheStep κ α)

/-- What was stored at a time is not older than the limit, if there is one. -/
def WithinLimit (ttl : Option Nat) (storedAt now : Nat) : Prop := ∀ limit ∈ ttl, now - storedAt ≤ limit

theorem WithinLimit.of_le {ttl : Option Nat} {storedAt now later : Nat} (H : WithinLimit ttl storedAt later)
    (h : now ≤ later) : WithinLimit ttl storedAt now := by
  intro limit hlimit
  have hlater := H limit hlimit
  omega

namespace BoundedCache

variable {κ α : Type} {c : BoundedCache κ α} {now : Nat} {k : κ} {x : CacheEntry κ α}

theorem expired_eq_false_iff {storedAt : Nat} :
    c.expired storedAt now = false ↔ WithinLimit c.ttl storedAt now := by
  unfold expired WithinLimit
  cases c.ttl with
  | none => simp
  | some limit => simp

theorem length_keys (c : BoundedCache κ α) : c.keys.length = c.size := List.length_map _

theorem mem_keys_of_mem_entries (hx : x ∈ c.entries) : x.key ∈ c.keys := List.mem_map.2 ⟨x, hx, rfl⟩

variable [DecidableEq κ]

theorem mem_keys_of_find? (h : c.find? k = some x) : k ∈ c.keys :=
  key_of_find? h ▸ mem_keys_of_mem_entries (List.mem_of_find?_eq_some h)

theorem find?_eq_none_iff : c.find? k = none ↔ k ∉ c.keys := by
  simp [find?, keys]

theorem length_without_lt (hx : x ∈ c.entries) : (c.without x.key).length < c.size := by
  unfold without size
  rw [List.length_filter_lt_length_iff_exists]
  exact ⟨x, hx, by simp⟩

theorem without_of_find?_eq_none (h : c.find? k = none) : c.without k = c.entries := by
  refine List.filter_eq_self.2 fun x hx => decide_eq_true fun hkey => ?_
  exact find?_eq_none_iff.1 h (hkey ▸ mem_keys_of_mem_entries hx)

/-! ## Lookup -/

theorem get_of_find?_eq_none (h : c.find? k = none) :
    c.get now k = (none, { c with counters := { c.counters with misses := c.counters.misses + 1 } }) := by
  rw [get, h]

theorem get_of_expired (h : c.find? k = some x) (hold : c.expired x.storedAt now = true) :
    c.get now k = (none, { c with
      entries := c.without k
      counters := { c.counters with
        misses := c.counters.misses + 1
        expirations := c.counters.expirations + 1 } }) := by
  rw [get, h]
  exact if_pos hold

theorem get_of_fresh (h : c.find? k = some x) (hnew : c.expired x.storedAt now = false) :
    c.get now k = (some x.value, { c with
      entries := x :: c.without k
      counters := { c.counters with hits := c.counters.hits + 1 } }) := by
  rw [get, h]
  exact if_neg (hnew ▸ Bool.false_ne_true)

/-- A lookup finds nothing, or an entry that is too old, or one that is not. -/
theorem get_cases (c : BoundedCache κ α) (now : Nat) (k : κ) :
    (c.find? k = none ∧
      c.get now k = (none, { c with counters := { c.counters with misses := c.counters.misses + 1 } })) ∨
    ∃ x, c.find? k = some x ∧
      ((c.expired x.storedAt now = true ∧
        c.get now k = (none, { c with
          entries := c.without k
          counters := { c.counters with
            misses := c.counters.misses + 1
            expirations := c.counters.expirations + 1 } })) ∨
      (c.expired x.storedAt now = false ∧
        c.get now k = (some x.value, { c with
          entries := x :: c.without k
          counters := { c.counters with hits := c.counters.hits + 1 } }))) := by
  cases hfind : c.find? k with
  | none => exact .inl ⟨rfl, get_of_find?_eq_none hfind⟩
  | some x =>
    cases hold : c.expired x.storedAt now with
    | true => exact .inr ⟨x, rfl, .inl ⟨hold, get_of_expired hfind hold⟩⟩
    | false => exact .inr ⟨x, rfl, .inr ⟨hold, get_of_fresh hfind hold⟩⟩

/-- A lookup gives what is held, unless it is too old. -/
theorem get_eq_some_iff {v : α} :
    (c.get now k).1 = some v ↔
      ∃ x, c.find? k = some x ∧ c.expired x.storedAt now = false ∧ x.value = v := by
  obtain ⟨hfind, hget⟩ | ⟨x, hfind, ⟨hold, hget⟩ | ⟨hnew, hget⟩⟩ := c.get_cases now k
  · simp [hget, hfind]
  · simp [hget, hfind, hold]
  · simp [hget, hfind, hnew]

end BoundedCache

namespace CacheUse

variable {κ α : Type} [DecidableEq κ]

/-- The cache after it was used at a time. -/
def apply (now : Nat) : CacheUse κ α → BoundedCache κ α → BoundedCache κ α
  | get k, c => (c.get now k).2
  | put k v, c => c.put now k v
  | remove k, c => (c.remove k).2
  -- asking whether a key is held leaves the cache as it is
  | contains _, c => c
  | cleanup, c => (c.cleanup now).2
  | clear, c => c.clear

/-- The key that is written or found. -/
def touched (now : Nat) : CacheUse κ α → BoundedCache κ α → Option κ
  | get k, c => if (c.get now k).1.isSome then some k else none
  | put k _, _ => some k
  | _, _ => none

/-- Does it write a key, remove it or clear it away? -/
def changes (k : κ) : CacheUse κ α → Bool
  | put j _ => j = k
  | remove j => j = k
  | clear => true
  | _ => false

/-- What a use leaves of the entries of a cache. -/
inductive Effect (u : CacheUse κ α) (now : Nat) (c : BoundedCache κ α) : Prop where
  /-- Entries are dropped because they are removed or too old. -/
  | drops (keep : CacheEntry κ α → Bool) (untouched : u.touched now c = none)
      (entries : (u.apply now c).entries = c.entries.filter keep)
      (kept : ∀ x ∈ c.entries, keep x = true → u.changes x.key = false)
      (gone : ∀ x ∈ c.entries, keep x = false →
        u.changes x.key = true ∨ ∃ y ∈ c.entries, y.key = x.key ∧ c.expired y.storedAt now = true)
  /-- A key that is written or found comes to the front, and at least as many entries are kept as fit. -/
  | touches (x : CacheEntry κ α) (room : Nat) (touched : u.touched now c = some x.key)
      (entries : (u.apply now c).entries = (x :: c.without x.key).take room) (fits : c.maxSize ≤ room)
      (origin : (x ∈ c.entries ∧ ∀ k, u.changes k = false) ∨
        (u = .put x.key x.value ∧ x.storedAt = now ∧ room = c.maxSize))

theorem effect (u : CacheUse κ α) (now : Nat) (c : BoundedCache κ α) : u.Effect now c := by
  cases u with
  | get k =>
    obtain ⟨-, hget⟩ | ⟨x, hfind, ⟨hold, hget⟩ | ⟨-, hget⟩⟩ := c.get_cases now k
    · refine .drops (fun _ => true) ?_ ?_ (fun _ _ _ => rfl) fun _ _ h => absurd h.symm Bool.false_ne_true
      · simp [touched, hget]
      · simp [apply, hget]
    · have hkey := BoundedCache.key_of_find? hfind
      refine .drops (fun y => y.key ≠ k) ?_ ?_ (fun _ _ _ => rfl) fun y _ hy => .inr ?_
      · simp [touched, hget]
      · rw [apply, hget]
        rfl
      · have hyk : y.key = k := by simpa using hy
        exact ⟨x, List.mem_of_find?_eq_some hfind, hkey.trans hyk.symm, hold⟩
    · obtain rfl := BoundedCache.key_of_find? hfind
      refine .touches x (max c.maxSize (x :: c.without x.key).length) ?_ ?_ (Nat.le_max_left ..)
        (.inl ⟨List.mem_of_find?_eq_some hfind, fun _ => rfl⟩)
      · simp [touched, hget]
      · rw [List.take_of_length_le (Nat.le_max_right ..), apply, hget]
  | put k v => exact .touches ⟨k, v, now⟩ c.maxSize rfl rfl (Nat.le_refl _) (.inr ⟨rfl, rfl, rfl⟩)
  | remove k =>
    refine .drops (fun y => y.key ≠ k) rfl rfl (fun y _ hy => ?_) fun y _ hy => .inl ?_
    · have hyk : y.key ≠ k := of_decide_eq_true hy
      exact decide_eq_false hyk.symm
    · have hyk : y.key = k := by simpa using hy
      exact decide_eq_true hyk.symm
  | contains k =>
    exact .drops (fun _ => true) rfl (by simp [apply]) (fun _ _ _ => rfl) fun _ _ h => absurd h.symm Bool.false_ne_true
  | cleanup =>
    refine .drops (fun y => !c.expired y.storedAt now) rfl rfl (fun _ _ _ => rfl) fun y hy hold => .inr ?_
    exact ⟨y, hy, rfl, by simpa using hold⟩
  | clear =>
    exact .drops (fun _ => false) rfl (by simp [apply, BoundedCache.clear])
      (fun _ _ h => absurd h Bool.false_ne_true) fun _ _ _ => .inl rfl

variable {u : CacheUse κ α} {now : Nat} {c : BoundedCache κ α}

theorem bounds_apply (u : CacheUse κ α) (now : Nat) (c : BoundedCache κ α) :
    (u.apply now c).maxSize = c.maxSize ∧ (u.apply now c).ttl = c.ttl := by
  cases u with
  | get k =>
    obtain ⟨-, hget⟩ | ⟨x, -, ⟨-, hget⟩ | ⟨-, hget⟩⟩ := c.get_cases now k <;> rw [apply, hget] <;>
      exact ⟨rfl, rfl⟩
  | put k v => exact ⟨rfl, rfl⟩
  | remove k => exact ⟨rfl, rfl⟩
  | contains k => exact ⟨rfl, rfl⟩
  | cleanup => exact ⟨rfl, rfl⟩
  | clear => exact ⟨rfl, rfl⟩

theorem keys_of_drops {keep : CacheEntry κ α → Bool} (h : (u.apply now c).entries = c.entries.filter keep) :
    ((u.apply now c).keys).Sublist c.keys := by
  rw [BoundedCache.keys, h]
  exact List.filter_sublist.map _

theorem keys_of_touches {x : CacheEntry κ α} {room : Nat}
    (h : (u.apply now c).entries = (x :: c.without x.key).take room) :
    (u.apply now c).keys = (x.key :: c.keys.filter fun j => j ≠ x.key).take room := by
  rw [BoundedCache.keys, h, List.map_take, List.map_cons, c.map_key_without]

theorem nodup_front (h : c.keys.Nodup) (k : κ) : (k :: c.keys.filter fun j => j ≠ k).Nodup := by
  refine List.nodup_cons.2 ⟨fun hk => ?_, h.filter _⟩
  exact of_decide_eq_true (List.mem_filter.1 hk).2 rfl

theorem nodup_keys_apply (h : c.keys.Nodup) : (u.apply now c).keys.Nodup := by
  cases u.effect now c with
  | drops keep _ hentries _ _ => exact h.sublist (keys_of_drops hentries)
  | touches x room _ hentries _ _ =>
    rw [keys_of_touches hentries]
    exact (nodup_front h x.key).sublist (List.take_sublist _ _)

/-- A key that is written or found is held afterwards. -/
theorem mem_keys_of_touched {k : κ} (h : u.touched now c = some k) : k ∈ (u.apply now c).keys := by
  cases u.effect now c with
  | drops keep untouched _ _ _ => cases untouched.symm.trans h
  | touches x room touched hentries fits _ =>
    cases touched.symm.trans h
    rw [keys_of_touches hentries, List.take_cons (Nat.lt_of_lt_of_le c.maxSize_pos fits)]
    exact List.mem_cons_self

theorem size_apply_le (h : c.size ≤ c.maxSize) : (u.apply now c).size ≤ c.maxSize := by
  unfold BoundedCache.size
  cases u.effect now c with
  | drops keep _ hentries _ _ =>
    rw [hentries]
    exact Nat.le_trans (List.length_filter_le _ _) h
  | touches x room _ hentries _ origin =>
    rw [hentries, List.length_take]
    rcases origin with ⟨hx, -⟩ | ⟨-, -, rfl⟩
    · have hlt := c.length_without_lt hx
      rw [List.length_cons]
      omega
    · exact Nat.min_le_left _ _

/-- A use leaves entries that were held and not changed, and what it writes. -/
theorem mem_entries_apply {x : CacheEntry κ α} (hx : x ∈ (u.apply now c).entries) :
    (x ∈ c.entries ∧ u.changes x.key = false) ∨ (u = .put x.key x.value ∧ x.storedAt = now) := by
  cases u.effect now c with
  | drops keep _ hentries kept _ =>
    rw [hentries] at hx
    obtain ⟨hx, hkeep⟩ := List.mem_filter.1 hx
    exact .inl ⟨hx, kept x hx hkeep⟩
  | touches y room _ hentries _ origin =>
    rw [hentries] at hx
    rcases List.mem_cons.1 (List.mem_of_mem_take hx) with rfl | hx
    · exact origin.imp (fun ⟨hx, hchanges⟩ => ⟨hx, hchanges _⟩) fun ⟨hput, hnow, _⟩ => ⟨hput, hnow⟩
    · obtain ⟨hx, hne⟩ := List.mem_filter.1 hx
      have hkey : x.key ≠ y.key := of_decide_eq_true hne
      refine .inl ⟨hx, ?_⟩
      rcases origin with ⟨-, hchanges⟩ | ⟨rfl, -, -⟩
      · exact hchanges _
      · exact decide_eq_false hkey.symm

end CacheUse

namespace CacheHistory

variable {κ α : Type} [DecidableEq κ] {maxSize : Nat} {ttl : Option Nat}

/-- The cache that a history leaves of an empty one. -/
def cache (maxSize : Nat) (ttl : Option Nat) : CacheHistory κ α → BoundedCache κ α
  | [] => .empty maxSize ttl
  | s :: past => s.use.apply s.now (cache maxSize ttl past)

theorem maxSize_cache (past : CacheHistory κ α) : (past.cache maxSize ttl).maxSize = max maxSize 1 := by
  induction past with
  | nil => rfl
  | cons s past ih => exact (s.use.bounds_apply _ _).1.trans ih

theorem ttl_cache (past : CacheHistory κ α) : (past.cache maxSize ttl).ttl = ttl := by
  induction past with
  | nil => rfl
  | cons s past ih => exact (s.use.bounds_apply _ _).2.trans ih

theorem expired_cache_eq_false_iff (past : CacheHistory κ α) {storedAt now : Nat} :
    (past.cache maxSize ttl).expired storedAt now = false ↔ WithinLimit ttl storedAt now := by
  rw [BoundedCache.expired_eq_false_iff, ttl_cache]

theorem nodup_keys (past : CacheHistory κ α) : (past.cache maxSize ttl).keys.Nodup := by
  induction past with
  | nil => exact List.nodup_nil
  | cons s past ih => exact CacheUse.nodup_keys_apply ih

theorem size_le (past : CacheHistory κ α) : (past.cache maxSize ttl).size ≤ max maxSize 1 := by
  induction past with
  | nil => exact Nat.zero_le _
  | cons s past ih =>
    rw [← maxSize_cache past] at ih ⊢
    exact CacheUse.size_apply_le ih

/-- Three rooms are written; a lookup of the first comes in between. -/
def visits : CacheHistory String Nat :=
  [⟨7, .put "den" 3⟩, ⟨5, .get "office"⟩, ⟨3, .put "hall" 2⟩, ⟨1, .put "office" 1⟩]

end CacheHistory

end DeviceNaming
