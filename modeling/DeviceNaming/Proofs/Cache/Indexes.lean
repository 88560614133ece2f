import DeviceNaming.Cache.Indexes
import DeviceNaming.Proofs.Order.Roster

/-!
# What an index cache gives

`IndexCache.fresh?` is the index that a user would get at a time. Each operation is described by what it does
to `fresh?` at all later times: a lookup and a cleaning do nothing to it (`fresh?_get`, `fresh?_cleanup`), although
they drop entries.
-/

namespace DeviceNaming.IndexCache

variable {ι : Type} {c : IndexCache ι} {now t : Nat}

/-- The index of a user, unless it is too old at the time. -/
def fresh? (c : IndexCache ι) (now : Nat) (user : String) : Option ι :=
  ((c.entries.find? user).filter fun x => !c.expired now x).map (·.index)

/-- Each user has one entry, and each index has a property. -/
structure Tidy (P : ι → Prop) (c : IndexCache ι) : Prop where
  distinct : c.entries.keys.Nodup
  all : ∀ {user x}, c.entries.find? user = some x → P x.index

theorem expired_mono (h : now ≤ t) {x : CachedIndex ι} (hx : c.expired now x = true) :
    c.expired t x = true := by
  simp only [expired, decide_eq_true_eq] at hx ⊢
  omega

theorem fresh?_eq_none_of_expired {user : String} {x : CachedIndex ι}
    (hfind : c.entries.find? user = some x) (hx : c.expired now x = true) : c.fresh? now user = none := by
  rw [fresh?, hfind, Option.filter_some, hx]
  rfl

/-- What is fresh later is fresh now. -/
theorem fresh?_mono (h : now ≤ t) {user : String} {i : ι} (hsome : c.fresh? t user = some i) :
    c.fresh? now user = some i := by
  obtain ⟨x, hx, rfl⟩ := Option.map_eq_some_iff.1 hsome
  obtain ⟨hfind, hnew⟩ := Option.filter_eq_some_iff.1 hx
  have hnow : c.expired now x = false := by
    cases hold : c.expired now x with
    | false => rfl
    | true =>
      rw [expired_mono h hold] at hnew
      cases hnew
  rw [fresh?, hfind, Option.filter_some, hnow]
  rfl

/-! ## Lookup -/

/-- A lookup gives what is fresh, and drops at most what is too old. -/
theorem get_spec (c : IndexCache ι) (now : Nat) (user : String) :
    (c.get now user false).1 = c.fresh? now user ∧ (c.get now user false).2.ttl = c.ttl ∧
      ((c.get now user false).2.entries = c.entries ∨
        ((c.get now user false).2.entries = c.entries.erase user ∧ c.fresh? now user = none)) := by
  unfold get
  rw [if_neg Bool.false_ne_true]
  cases hfind : c.entries.find? user with
  | none =>
    refine ⟨?_, rfl, .inl rfl⟩
    rw [fresh?, hfind]
    rfl
  | some x =>
    dsimp only
    split
    · rename_i hx
      have hnone := fresh?_eq_none_of_expired hfind hx
      exact ⟨hnone.symm, rfl, .inr ⟨rfl, hnone⟩⟩
    · rename_i hx
      refine ⟨?_, rfl, .inl rfl⟩
      rw [fresh?, hfind, Option.filter_some, (Bool.not_eq_true _).mp hx]
      rfl

/-- What a lookup gives is held for the user. -/
theorem exists_of_get {user : String} {i : ι} (h : (c.get now user false).1 = some i) :
    ∃ x, c.entries.find? user = some x ∧ x.index = i := by
  rw [(c.get_spec now user).1] at h
  obtain ⟨x, hx, hi⟩ := Option.map_eq_some_iff.1 h
  exact ⟨x, (Option.filter_eq_some_iff.1 hx).1, hi⟩

/-- After a lookup that gives nothing, nothing is held for the user. -/
theorem find?_get_of_eq_none {user : String} (h : (c.get now user false).1 = none) :
    (c.get now user false).2.entries.find? user = none := by
  unfold get at h ⊢
  rw [if_neg Bool.false_ne_true] at h ⊢
  cases hfind : c.entries.find? user with
  | none => exact hfind
  | some x =>
    rw [hfind] at h
    dsimp only at h ⊢
    split
    · rw [Roster.find?_erase, if_pos rfl]
    · rename_i hx
      rw [if_neg hx] at h
      cases h

/-- A lookup drops at most an entry. -/
theorem find?_of_find?_get {user v : String} {x : CachedIndex ι}
    (h : (c.get now user false).2.entries.find? v = some x) : c.entries.find? v = some x := by
  obtain ⟨-, -, hentries | ⟨hentries, -⟩⟩ := c.get_spec now user
  · rwa [hentries] at h
  · rw [hentries, Roster.find?_erase] at h
    split at h
    · cases h
    · exact h

theorem fresh?_get (h : now ≤ t) (user v : String) :
    (c.get now user false).2.fresh? t v = c.fresh? t v := by
  obtain ⟨-, httl, hentries | ⟨hentries, hnone⟩⟩ := c.get_spec now user
  · simp only [fresh?, expired, hentries, httl]
  · by_cases hv : v = user
    · subst hv
      have hnone' : c.fresh? t v = none := by
        cases hsome : c.fresh? t v with
        | none => rfl
        | some i => cases hnone.symm.trans (fresh?_mono h hsome)
      rw [hnone', fresh?, hentries, Roster.find?_erase, if_pos rfl]
      rfl
    · simp only [fresh?, expired, hentries, httl, Roster.find?_erase, if_neg hv]

/-! ## Writing and dropping -/

theorem fresh?_put (c : IndexCache ι) (now t : Nat) (user v : String) (i : ι) :
    (c.put now user i).fresh? t v =
      if v = user then (if c.ttl < t - now then none else some i) else c.fresh? t v := by
  simp only [fresh?, put, Roster.find?_put]
  by_cases hv : v = user
  · rw [if_pos hv, if_pos hv, Option.filter_some]
    by_cases hold : c.ttl < t - now <;> simp [expired, hold]
  · rw [if_neg hv, if_neg hv]
    rfl

theorem invalidate_entries (c : IndexCache ι) (user v : String) :
    (c.invalidate user).2.entries.find? v = if v = user then none else c.entries.find? v := by
  unfold invalidate
  split
  · exact Roster.find?_erase ..
  · rename_i hnone
    by_cases hv : v = user
    · subst hv
      rw [if_pos rfl]
      simpa [Roster.contains] using hnone
    · rw [if_neg hv]

theorem invalidate_ttl (c : IndexCache ι) (user : String) : (c.invalidate user).2.ttl = c.ttl := by
  unfold invalidate
  split <;> rfl

theorem fresh?_invalidate (c : IndexCache ι) (t : Nat) (user v : String) :
    (c.invalidate user).2.fresh? t v = if v = user then none else c.fresh? t v := by
  simp only [fresh?, expired, invalidate_entries, invalidate_ttl]
  split <;> rfl

theorem fresh?_cleanup (hc : c.entries.keys.Nodup) (h : now ≤ t) (v : String) :
    (c.cleanup now).2.fresh? t v = c.fresh? t v := by
  have hfind : (c.cleanup now).2.entries.find? v =
      (c.entries.find? v).filter fun x => !c.expired now x :=
    Roster.find?_filter hc (fun p => !c.expired now p.2) v
  rw [fresh?, hfind, fresh?]
  cases c.entries.find? v with
  | none => rfl
  | some x =>
    rw [Option.filter_some, Option.filter_some]
    cases hx : c.expired now x with
    | true =>
      rw [expired_mono h hx]
      rfl
    | false => rfl

namespace Tidy

variable {P : ι → Prop}

theorem empty (ttl : Nat) : (IndexCache.empty ttl : IndexCache ι).Tidy P := ⟨List.nodup_nil, nofun⟩

theorem of_distinct (h : c.entries.keys.Nodup) : c.Tidy fun _ => True := ⟨h, fun _ => trivial⟩

theorem imp {Q : ι → Prop} (H : c.Tidy P) (h : ∀ i, P i → Q i) : c.Tidy Q :=
  ⟨H.distinct, fun hx => h _ (H.all hx)⟩

theorem erase (H : c.Tidy P) {d : IndexCache ι} {user : String} (hd : d.entries = c.entries.erase user) :
    d.Tidy P := by
  refine ⟨hd ▸ Roster.nodup_keys_erase H.distinct user, fun {v x} hx => ?_⟩
  rw [hd, Roster.find?_erase] at hx
  split at hx
  · cases hx
  · exact H.all hx

theorem get (H : c.Tidy P) (now : Nat) (user : String) : (c.get now user false).2.Tidy P := by
  obtain ⟨-, -, hentries | ⟨hentries, -⟩⟩ := c.get_spec now user
  · constructor
    · rw [hentries]
      exact H.distinct
    · rw [hentries]
      exact H.all
  · exact H.erase hentries

theorem put (H : c.Tidy P) {i : ι} (hi : P i) (now : Nat) (user : String) : (c.put now user i).Tidy P := by
  refine ⟨Roster.nodup_keys_put H.distinct _ _, fun {v x} hx => ?_⟩
  rw [IndexCache.put, Roster.find?_put] at hx
  split at hx
  · cases hx
    exact hi
  · exact H.all hx

theorem invalidate (H : c.Tidy P) (user : String) : (c.invalidate user).2.Tidy P := by
  unfold IndexCache.invalidate
  split
  · exact H.erase rfl
  · exact H

theorem cleanup (H : c.Tidy P) (now : Nat) : (c.cleanup now).2.Tidy P := by
  refine ⟨H.distinct.sublist (List.filter_sublist.map _), fun {v x} hx => ?_⟩
  have hfind := Roster.find?_filter H.distinct (fun p => !c.expired now p.2) v
  exact H.all (Option.filter_eq_some_iff.1 (hfind.symm.trans hx)).1

/-- What is fresh has the property. -/
theorem of_fresh? (H : c.Tidy P) {user : String} {i : ι} (h : c.fresh? now user = some i) : P i := by
  obtain ⟨x, hx, rfl⟩ := Option.map_eq_some_iff.1 h
  exact H.all (Option.filter_eq_some_iff.1 hx).1

end Tidy

end DeviceNaming.IndexCache
