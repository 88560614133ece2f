import DeviceNaming.Proofs.Cache.History

/-!
# A larger cache never loses a hit

Two caches with the same time limit are used in the same way. A lookup that misses brings nothing in, so that a hit
in the larger cache alone moves an entry there which the smaller one does not have: the keys of the smaller are not the
first keys of the larger. But they stand in the same order (`BoundedCache.Within`), and the larger cache has at most
as many other entries as it has more room; so an entry that it drives out is driven out by the smaller one, too.

Main statement: `CacheHistory.larger_keeps_hits`.
-/

namespace DeviceNaming

/-- A list is part of another, which has at most so many elements more. -/
structure PartOf {β : Type} (surplus : Nat) (small large : List β) : Prop where
  sublist : small.Sublist large
  length_le : large.length ≤ small.length + surplus

namespace PartOf

variable {β : Type} {surplus : Nat} {small large : List β}

theorem nil (surplus : Nat) : PartOf surplus ([] : List β) [] := ⟨.slnil, Nat.zero_le _⟩

theorem cons (H : PartOf surplus small large) (x : β) : PartOf surplus (x :: small) (x :: large) := by
  refine ⟨H.sublist.cons_cons x, ?_⟩
  have hlength := H.length_le
  simp only [List.length_cons]
  omega

theorem filter (H : PartOf surplus small large) (p : β → Bool) :
    PartOf surplus (small.filter p) (large.filter p) := by
  refine ⟨H.sublist.filter p, ?_⟩
  have hlength := H.length_le
  have hsmall := List.length_eq_countP_add_countP p (l := small)
  have hlarge := List.length_eq_countP_add_countP p (l := large)
  have hdropped := H.sublist.countP_le (p := fun x => decide ¬p x = true)
  rw [← List.countP_eq_length_filter, ← List.countP_eq_length_filter]
  omega

/-- What is cut off the larger list is cut off the smaller one. -/
theorem take (H : PartOf surplus small large) (room : Nat) :
    PartOf surplus (small.take room) (large.take (room + surplus)) := by
  have hlength := H.length_le
  constructor
  · have hsplit := H.sublist
    rw [← List.take_append_drop (room + surplus) large] at hsplit
    obtain ⟨front, back, rfl, hfront, hback⟩ := List.sublist_append_iff.1 hsplit
    have hback := hback.length_le
    rw [List.length_drop] at hback
    rw [List.length_append] at hlength
    by_cases hroom : room ≤ front.length
    · rw [List.take_append_of_le_length hroom]
      exact (List.take_sublist _ _).trans hfront
    · have hnil : back = [] := List.length_eq_zero_iff.1 (by omega)
      rw [hnil, List.append_nil]
      exact (List.take_sublist _ _).trans hfront
  · simp only [List.length_take]
    omega

end PartOf

namespace BoundedCache

variable {κ α : Type} {surplus : Nat} {c d : BoundedCache κ α} {k : κ} {x : CacheEntry κ α}

/-- The second cache has more room, and it holds what the first one holds, in the same order. -/
structure Within (surplus : Nat) (c d : BoundedCache κ α) : Prop where
  ttl : c.ttl = d.ttl
  maxSize : d.maxSize = c.maxSize + surplus
  nodup : d.keys.Nodup
  entries : PartOf surplus c.entries d.entries

theorem Within.keys (W : c.Within surplus d) : c.keys.Sublist d.keys := W.entries.sublist.map _

theorem Within.expired_eq (W : c.Within surplus d) (storedAt now : Nat) :
    d.expired storedAt now = c.expired storedAt now := by
  rw [expired, expired, W.ttl]

variable [DecidableEq κ]

theorem find?_of_mem_entries (hnodup : c.keys.Nodup) (hx : x ∈ c.entries) : c.find? x.key = some x := by
  cases hfind : c.find? x.key with
  | none => exact absurd (mem_keys_of_mem_entries hx) (find?_eq_none_iff.1 hfind)
  | some y =>
    have hy := List.mem_of_find?_eq_some hfind
    rw [List.inj_on_of_nodup_map hnodup hy hx (key_of_find? hfind)]

namespace Within

variable (W : c.Within surplus d)

include W

theorem find? (h : c.find? k = some x) : d.find? k = some x := by
  obtain rfl := key_of_find? h
  exact find?_of_mem_entries W.nodup (W.entries.sublist.subset (List.mem_of_find?_eq_some h))

theorem without (k : κ) : PartOf surplus (c.without k) (d.without k) := W.entries.filter _

/-- A lookup that finds something in the larger cache only leaves the entries of the smaller one among its own. -/
theorem entries_of_miss (hmiss : c.find? k = none) (now : Nat) :
    PartOf surplus c.entries (d.get now k).2.entries := by
  have hsame : c.without k = c.entries := without_of_find?_eq_none hmiss
  have hpart := W.without k
  rw [hsame] at hpart
  obtain ⟨-, hget⟩ | ⟨x, hfind, ⟨-, hget⟩ | ⟨-, hget⟩⟩ := d.get_cases now k
  · rw [hget]
    exact W.entries
  · rw [hget]
    exact hpart
  · obtain rfl := key_of_find? hfind
    have hlt := length_without_lt (List.mem_of_find?_eq_some hfind)
    have hlength := W.entries.length_le
    rw [hget]
    refine ⟨hpart.sublist.cons x, ?_⟩
    simp only [size, List.length_cons] at hlt ⊢
    omega

theorem get_entries (now : Nat) (k : κ) : PartOf surplus (c.get now k).2.entries (d.get now k).2.entries := by
  obtain ⟨hmiss, hget⟩ | ⟨x, hfind, ⟨hold, hget⟩ | ⟨hnew, hget⟩⟩ := c.get_cases now k
  · rw [hget]
    exact W.entries_of_miss hmiss now
  · rw [← W.expired_eq] at hold
    rw [hget, d.get_of_expired (W.find? hfind) hold]
    exact W.without k
  · rw [← W.expired_eq] at hnew
    rw [hget, d.get_of_fresh (W.find? hfind) hnew]
    exact (W.without k).cons x

theorem apply (u : CacheUse κ α) (now : Nat) : (u.apply now c).Within surplus (u.apply now d) := by
  obtain ⟨hmaxSize, httl⟩ := u.bounds_apply now c
  obtain ⟨hmaxSize', httl'⟩ := u.bounds_apply now d
  refine ⟨by rw [httl, httl', W.ttl], by rw [hmaxSize, hmaxSize', W.maxSize],
    CacheUse.nodup_keys_apply W.nodup, ?_⟩
  cases u with
  | get k => exact W.get_entries now k
  | put k v =>
    simp only [CacheUse.apply, put, W.maxSize]
    exact ((W.without k).cons _).take c.maxSize
  | remove k => exact W.without k
  | contains k => exact W.entries
  | cleanup =>
    simp only [CacheUse.apply, cleanup, W.expired_eq]
    exact W.entries.filter _
  | clear => exact .nil surplus

theorem get_eq_some {now : Nat} {v : α} (h : (c.get now k).1 = some v) : (d.get now k).1 = some v := by
  obtain ⟨x, hfind, hnew, hvalue⟩ := get_eq_some_iff.1 h
  rw [← W.expired_eq] at hnew
  exact get_eq_some_iff.2 ⟨x, W.find? hfind, hnew, hvalue⟩

end Within

end BoundedCache

namespace CacheHistory

variable {κ α : Type} [DecidableEq κ]

theorem within_cache {m n : Nat} (h : m ≤ n) (ttl : Option Nat) (past : CacheHistory κ α) :
    (past.cache m ttl).Within (max n 1 - max m 1) (past.cache n ttl) := by
  induction past with
  | nil =>
    refine ⟨rfl, ?_, List.nodup_nil, .nil _⟩
    simp only [cache, BoundedCache.empty]
    omega
  | cons s past ih => exact ih.apply s.use s.now

/-- After any history, the keys of the smaller cache are among those of the larger, in the same order, and whatever a
lookup finds in the smaller one it finds in the larger, too. -/
theorem larger_keeps_hits {m n : Nat} (h : m ≤ n) (ttl : Option Nat) (past : CacheHistory κ α) :
    ((past.cache m ttl).keys).Sublist (past.cache n ttl).keys ∧
      ∀ now k v, ((past.cache m ttl).get now k).1 = some v → ((past.cache n ttl).get now k).1 = some v := by
  have W := within_cache h ttl past
  exact ⟨W.keys, fun now k v => W.get_eq_some⟩

/-- With room for one only the den is left; with room for two the lookup brought the office before the hall. -/
theorem larger_keeps_hits_visits :
    1 ≤ 2 ∧ (visits.cache 1 none).keys = ["den"] ∧ (visits.cache 2 none).keys = ["den", "office"] ∧
      ((visits.cache 1 none).keys).Sublist (visits.cache 2 none).keys ∧
      ∀ now k v, ((visits.cache 1 none).get now k).1 = some v → ((visits.cache 2 none).get now k).1 = some v :=
  ⟨by decide, by decide +kernel, by decide +kernel, larger_keeps_hits (by decide) none visits⟩

end CacheHistory

end DeviceNaming
