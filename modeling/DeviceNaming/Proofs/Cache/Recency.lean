import DeviceNaming.Proofs.Cache.History
import Mathlib.Data.Finset.Card
import Mathlib.Data.List.Nodup

/-!
# What a lookup says about the past

A lookup finds what was last written under its key, as long as that is not too old. If it finds nothing although
something was written that is not too old, then the entry was driven out: since its key was last written or found, as
many other keys were as fit into the cache. Without a time limit and without removals this decides each lookup, and
the keys stand in the order in which they were last written or found: `CacheHistory.get_explained`.

The invariant is `CacheHistory.Recalls`.
-/

namespace DeviceNaming

/-! ## Lists in order of use -/

section

variable {κ : Type} {keys : List κ} {since : κ → Finset κ} {room : Nat} {i k : κ}

/-- In a list in order of use, what stands within the first places was used since what stands behind them. -/
theorem mem_since_of_mem_take (horder : keys.Pairwise fun i j => i ∈ since j) (hi : i ∈ keys.take room)
    (hk : k ∈ keys) (hroom : k ∉ keys.take room) : i ∈ since k := by
  rw [← List.take_append_drop room keys] at hk
  have hdrop : k ∈ keys.drop room := (List.mem_append.1 hk).resolve_left hroom
  rw [← List.take_append_drop room keys, List.pairwise_append] at horder
  exact horder.2.2 i hi k hdrop

variable [DecidableEq κ]

theorem mem_front : i ∈ k :: keys.filter (fun j => j ≠ k) ↔ i = k ∨ i ∈ keys := by
  by_cases hi : i = k <;> simp [hi]

theorem le_card_of_not_mem_take (horder : keys.Pairwise fun i j => i ∈ since j) (hnodup : keys.Nodup)
    (hk : k ∈ keys) (hroom : k ∉ keys.take room) : room ≤ (since k).card := by
  have hlength : (keys.take room).length = room := by
    refine List.length_take_of_le (Nat.le_of_not_lt fun hlt => hroom ?_)
    rwa [List.take_of_length_le (Nat.le_of_lt hlt)]
  calc room = (keys.take room).toFinset.card := by
        rw [List.toFinset_card_of_nodup (hnodup.sublist (List.take_sublist _ _)), hlength]
    _ ≤ (since k).card := Finset.card_le_card fun i hi =>
        mem_since_of_mem_take horder (List.mem_toFinset.1 hi) hk hroom

end

/-! ## Histories -/

/-- Is it a lookup, a write, or the question whether a key is held? -/
def CacheUse.isPlain {κ α : Type} : CacheUse κ α → Bool
  | get _ | put _ _ | contains _ => true
  | remove _ | cleanup | clear => false

theorem CacheUse.changes_of_isPlain {κ α : Type} [DecidableEq κ] {u : CacheUse κ α} {now : Nat}
    {c : BoundedCache κ α} (hu : u.isPlain = true) (h : u.touched now c = none) (k : κ) :
    u.changes k = false := by
  cases u with
  | get j => rfl
  | put j v => cases h
  | contains j => rfl
  | _ => cases hu

namespace CacheHistory

variable {κ α : Type} [DecidableEq κ]

/-- The step that last wrote a key, removed it, or cleared it away. -/
def lastChange (past : CacheHistory κ α) (k : κ) : Option (CacheStep κ α) :=
  past.find? fun s => s.use.changes k

/-- The keys that were written or found, the latest first. -/
def used (maxSize : Nat) (ttl : Option Nat) : CacheHistory κ α → List κ
  | [] => []
  | s :: past => (s.use.touched s.now (cache maxSize ttl past)).toList ++ used maxSize ttl past

/-- The other keys that were written or found since a key last was. -/
def usedSince (maxSize : Nat) (ttl : Option Nat) (past : CacheHistory κ α) (k : κ) : Finset κ :=
  ((past.used maxSize ttl).takeWhile fun j => j ≠ k).toFinset

/-- Only lookups, writes and questions. -/
def Plain (past : CacheHistory κ α) : Prop := ∀ s ∈ past, s.use.isPlain = true

variable {maxSize : Nat} {ttl : Option Nat} {past : CacheHistory κ α} {s : CacheStep κ α} {i j k : κ}

theorem lastChange_cons (s : CacheStep κ α) (past : CacheHistory κ α) (k : κ) :
    lastChange (s :: past) k = if s.use.changes k then some s else past.lastChange k := by
  rw [lastChange, List.find?_cons]
  cases s.use.changes k <;> rfl

/-! ## Keys used since -/

theorem usedSince_of_untouched (h : s.use.touched s.now (past.cache maxSize ttl) = none) (k : κ) :
    usedSince maxSize ttl (s :: past) k = past.usedSince maxSize ttl k := by
  rw [usedSince, used, h]
  rfl

theorem usedSince_of_touched (h : s.use.touched s.now (past.cache maxSize ttl) = some j) (k : κ) :
    usedSince maxSize ttl (s :: past) k = if j = k then ∅ else insert j (past.usedSince maxSize ttl k) := by
  rw [usedSince, used, h]
  by_cases hj : j = k <;> simp [hj, usedSince]

/-- Of two keys only one was used since the other. -/
theorem not_mem_usedSince_of_mem (h : i ∈ past.usedSince maxSize ttl k) :
    k ∉ past.usedSince maxSize ttl i := by
  unfold usedSince at h ⊢
  generalize past.used maxSize ttl = keys at h ⊢
  induction keys with
  | nil => exact absurd h (Finset.notMem_empty i)
  | cons j keys ih =>
    by_cases hk : j = k
    · rw [List.takeWhile_cons_of_neg (by simp [hk])] at h
      exact absurd h (Finset.notMem_empty i)
    by_cases hi : j = i
    · rw [List.takeWhile_cons_of_neg (by simp [hi])]
      exact Finset.notMem_empty k
    rw [List.takeWhile_cons_of_pos (by simp [hk]), List.toFinset_cons, Finset.mem_insert] at h
    rw [List.takeWhile_cons_of_pos (by simp [hi]), List.toFinset_cons, Finset.mem_insert, not_or]
    exact ⟨fun hkj => hk hkj.symm, ih (h.resolve_left fun hij => hi hij.symm)⟩

theorem not_mem_usedSince_self (k : κ) : k ∉ past.usedSince maxSize ttl k := fun h =>
  not_mem_usedSince_of_mem h h

theorem usedSince_subset (h : s.use.touched s.now (past.cache maxSize ttl) ≠ some k) :
    past.usedSince maxSize ttl k ⊆ usedSince maxSize ttl (s :: past) k := by
  cases htouched : s.use.touched s.now (past.cache maxSize ttl) with
  | none => rw [usedSince_of_untouched htouched]
  | some j =>
    have hj : j ≠ k := fun hj => h (hj ▸ htouched)
    rw [usedSince_of_touched htouched, if_neg hj]
    exact Finset.subset_insert j _

/-! ## The invariant -/

/-- A cache knows the last write of each key that it holds, its keys are in order of use, and what was written and is
gone is too old or was driven out. -/
structure Recalls (maxSize : Nat) (ttl : Option Nat) (past : CacheHistory κ α) : Prop where
  written : ∀ x ∈ (past.cache maxSize ttl).entries,
    past.lastChange x.key = some ⟨x.storedAt, .put x.key x.value⟩
  order : (past.cache maxSize ttl).keys.Pairwise fun i j => i ∈ past.usedSince maxSize ttl j
  lost : ∀ {k t v}, past.lastChange k = some ⟨t, .put k v⟩ → k ∉ (past.cache maxSize ttl).keys →
    (∃ s ∈ past, ¬WithinLimit ttl t s.now) ∨ max maxSize 1 ≤ (past.usedSince maxSize ttl k).card

namespace Recalls

variable (H : past.Recalls maxSize ttl)

include H

theorem written_cons (s : CacheStep κ α) : ∀ x ∈ (cache maxSize ttl (s :: past)).entries,
    lastChange (s :: past) x.key = some ⟨x.storedAt, .put x.key x.value⟩ := by
  intro x hx
  rw [lastChange_cons]
  rcases CacheUse.mem_entries_apply hx with ⟨hx, hchanges⟩ | ⟨hput, hnow⟩
  · rw [hchanges, if_neg Bool.false_ne_true]
    exact H.written x hx
  · obtain ⟨now, use⟩ := s
    dsimp only at hput hnow ⊢
    subst hput hnow
    simp [CacheUse.changes]

/-- With a key that is touched in front, the keys are in order of use. -/
theorem order_front (h : s.use.touched s.now (past.cache maxSize ttl) = some k) :
    (k :: (past.cache maxSize ttl).keys.filter fun j => j ≠ k).Pairwise
      fun i j => i ∈ usedSince maxSize ttl (s :: past) j := by
  refine List.pairwise_cons.2 ⟨fun j hj => ?_, ?_⟩
  · have hne : k ≠ j := fun hkj => of_decide_eq_true (List.mem_filter.1 hj).2 hkj.symm
    rw [usedSince_of_touched h, if_neg hne]
    exact Finset.mem_insert_self k _
  · refine (H.order.filter _).imp_of_mem fun {i j} _ hj hij => ?_
    have hne : k ≠ j := fun hkj => of_decide_eq_true (List.mem_filter.1 hj).2 hkj.symm
    rw [usedSince_of_touched h, if_neg hne]
    exact Finset.mem_insert_of_mem hij

theorem order_cons (s : CacheStep κ α) : (cache maxSize ttl (s :: past)).keys.Pairwise
    fun i j => i ∈ usedSince maxSize ttl (s :: past) j := by
  rw [cache]
  cases s.use.effect s.now (past.cache maxSize ttl) with
  | drops keep untouched hentries _ _ =>
    refine (H.order.sublist (CacheUse.keys_of_drops hentries)).imp fun {i j} hij => ?_
    rwa [usedSince_of_untouched untouched]
  | touches x room touched hentries _ _ =>
    rw [CacheUse.keys_of_touches hentries]
    exact (H.order_front touched).sublist (List.take_sublist _ _)

/-- A key that is held and not changed stays, unless its entry is too old or is driven out. -/
theorem lost_of_mem {t : Nat} {v : α} (hlast : past.lastChange k = some ⟨t, .put k v⟩)
    (hchanges : s.use.changes k = false) (hk : k ∈ (past.cache maxSize ttl).keys)
    (hgone : k ∉ (cache maxSize ttl (s :: past)).keys) :
    ¬WithinLimit ttl t s.now ∨ max maxSize 1 ≤ (usedSince maxSize ttl (s :: past) k).card := by
  rw [cache] at hgone
  cases s.use.effect s.now (past.cache maxSize ttl) with
  | drops keep _ hentries _ gone =>
    obtain ⟨x, hx, rfl⟩ := List.mem_map.1 hk
    have hkeep : keep x = false := by
      cases hkeep : keep x with
      | false => rfl
      | true =>
        have hleft : x ∈ (s.use.apply s.now (past.cache maxSize ttl)).entries := by
          rw [hentries]
          exact List.mem_filter.2 ⟨hx, hkeep⟩
        exact absurd (BoundedCache.mem_keys_of_mem_entries hleft) hgone
    rcases gone x hx hkeep with h | ⟨y, hy, hkey, hold⟩
    · rw [hchanges] at h
      cases h
    · have hwritten := H.written y hy
      rw [hkey, hlast] at hwritten
      cases hwritten
      exact .inl fun hlimit => nomatch ((expired_cache_eq_false_iff past).2 hlimit).symm.trans hold
  | touches x room touched hentries fits _ =>
    rw [CacheUse.keys_of_touches hentries] at hgone
    have hcard := le_card_of_not_mem_take (H.order_front touched)
      (CacheUse.nodup_front (nodup_keys past) x.key) (mem_front.2 (.inr hk)) hgone
    rw [maxSize_cache] at fits
    exact .inr (fits.trans hcard)

theorem lost_cons (s : CacheStep κ α) {t : Nat} {v : α} (hlast : lastChange (s :: past) k = some ⟨t, .put k v⟩)
    (hgone : k ∉ (cache maxSize ttl (s :: past)).keys) :
    (∃ r ∈ s :: past, ¬WithinLimit ttl t r.now) ∨
      max maxSize 1 ≤ (usedSince maxSize ttl (s :: past) k).card := by
  have huntouched : s.use.touched s.now (past.cache maxSize ttl) ≠ some k :=
    fun h => hgone (CacheUse.mem_keys_of_touched h)
  rw [lastChange_cons] at hlast
  cases hchanges : s.use.changes k with
  | true =>
    rw [hchanges, if_pos rfl] at hlast
    cases hlast
    exact absurd rfl huntouched
  | false =>
    rw [hchanges, if_neg Bool.false_ne_true] at hlast
    by_cases hk : k ∈ (past.cache maxSize ttl).keys
    · exact (H.lost_of_mem hlast hchanges hk hgone).imp_left fun hold => ⟨s, List.mem_cons_self, hold⟩
    · rcases H.lost hlast hk with ⟨r, hr, hold⟩ | hcard
      · exact .inl ⟨r, List.mem_cons_of_mem _ hr, hold⟩
      · exact .inr (hcard.trans (Finset.card_le_card (usedSince_subset huntouched)))

theorem cons (s : CacheStep κ α) : Recalls maxSize ttl (s :: past) :=
  ⟨H.written_cons s, H.order_cons s, H.lost_cons s⟩

end Recalls

theorem recalls (past : CacheHistory κ α) : past.Recalls maxSize ttl := by
  induction past with
  | nil => exact ⟨nofun, List.Pairwise.nil, nofun⟩
  | cons s past ih => exact ih.cons s

/-! ## Plain histories -/

/-- Without a time limit, a lookup that finds nothing and a question leave the entries as they are. -/
theorem entries_cons_of_untouched (hs : s.use.isPlain = true)
    (huntouched : s.use.touched s.now (cache maxSize none past) = none) :
    (cache maxSize none (s :: past)).entries = (cache maxSize none past).entries := by
  rw [cache]
  cases s.use.effect s.now (cache maxSize none past) with
  | drops keep _ hentries _ gone =>
    rw [hentries]
    refine List.filter_eq_self.2 fun x hx => ?_
    cases hkeep : keep x with
    | true => rfl
    | false =>
      rcases gone x hx hkeep with h | ⟨y, -, -, hold⟩
      · cases (CacheUse.changes_of_isPlain hs huntouched x.key).symm.trans h
      · rw [BoundedCache.expired, ttl_cache] at hold
        cases hold
  | touches x room touched _ _ _ => cases huntouched.symm.trans touched

/-- Without a time limit and removals, every key that was used since one that is held is held, too. -/
theorem Plain.mem_keys_of_mem_usedSince (hp : past.Plain) (hk : k ∈ (past.cache maxSize none).keys)
    (hi : i ∈ past.usedSince maxSize none k) : i ∈ (past.cache maxSize none).keys := by
  induction past with
  | nil => cases hk
  | cons s past ih =>
    obtain ⟨hs, hpast⟩ := List.forall_mem_cons.1 hp
    cases s.use.effect s.now (cache maxSize none past) with
    | drops keep untouched _ _ _ =>
      rw [BoundedCache.keys, entries_cons_of_untouched hs untouched] at hk ⊢
      rw [usedSince_of_untouched untouched] at hi
      exact ih hpast hk hi
    | touches x room touched hentries _ _ =>
      have hne : x.key ≠ k := by
        intro heq
        rw [usedSince_of_touched touched, if_pos heq] at hi
        exact Finset.notMem_empty i hi
      rw [cache, CacheUse.keys_of_touches hentries] at hk ⊢
      have hkfront := List.mem_of_mem_take hk
      have hkheld := (mem_front.1 hkfront).resolve_left fun heq => hne heq.symm
      have hifront : i ∈ x.key :: (cache maxSize none past).keys.filter fun j => j ≠ x.key := by
        rw [usedSince_of_touched touched, if_neg hne] at hi
        exact mem_front.2 ((Finset.mem_insert.1 hi).imp_right (ih hpast hkheld))
      -- a key that is driven out stands behind those that stay, so it was not used since one of them
      by_contra hroom
      have hback := mem_since_of_mem_take ((recalls past).order_front touched) hk hifront hroom
      exact not_mem_usedSince_of_mem hi hback

theorem Plain.card_usedSince_lt (hp : past.Plain) (hk : k ∈ (past.cache maxSize none).keys) :
    (past.usedSince maxSize none k).card < max maxSize 1 := by
  have hheld : insert k (past.usedSince maxSize none k) ⊆ (past.cache maxSize none).keys.toFinset := by
    intro i hi
    rw [List.mem_toFinset]
    rcases Finset.mem_insert.1 hi with rfl | hi
    · exact hk
    · exact hp.mem_keys_of_mem_usedSince hk hi
  calc (past.usedSince maxSize none k).card < (insert k (past.usedSince maxSize none k)).card := by
        rw [Finset.card_insert_of_notMem (not_mem_usedSince_self k)]
        exact Nat.lt_succ_self _
    _ ≤ (past.cache maxSize none).keys.toFinset.card := Finset.card_le_card hheld
    _ = (past.cache maxSize none).size := by
        rw [List.toFinset_card_of_nodup (nodup_keys past), BoundedCache.length_keys]
    _ ≤ max maxSize 1 := size_le past

/-- In a plain history the last change of a key that was written is a write. -/
theorem Plain.exists_lastChange (hp : past.Plain) {s : CacheStep κ α} {v : α} (hs : s ∈ past)
    (hput : s.use = .put k v) : ∃ t w, past.lastChange k = some ⟨t, .put k w⟩ := by
  have hsome : (past.lastChange k).isSome := by
    refine List.find?_isSome.2 ⟨s, hs, ?_⟩
    simp [hput, CacheUse.changes]
  obtain ⟨⟨t, use⟩, hlast⟩ := Option.isSome_iff_exists.1 hsome
  have hplain := hp _ (List.mem_of_find?_eq_some hlast)
  have hchanges := List.find?_some hlast
  cases use with
  | put j w =>
    have hj : j = k := of_decide_eq_true hchanges
    exact ⟨t, w, hj ▸ hlast⟩
  | get j => cases hchanges
  | contains j => cases hchanges
  | _ => cases hplain

/-! ## Lookups -/

/-- What the history of a cache says about a lookup. -/
structure Explained (maxSize : Nat) (ttl : Option Nat) (past : CacheHistory κ α) (now : Nat) (k : κ) : Prop where
  found : ∀ v, ((past.cache maxSize ttl).get now k).1 = some v →
    ∃ t, past.lastChange k = some ⟨t, .put k v⟩ ∧ WithinLimit ttl t now
  missed : ∀ t v, ((past.cache maxSize ttl).get now k).1 = none → past.lastChange k = some ⟨t, .put k v⟩ →
    WithinLimit ttl t now → max maxSize 1 ≤ (past.usedSince maxSize ttl k).card
  held : ttl = none → (((past.cache maxSize ttl).get now k).1.isSome ↔ k ∈ (past.cache maxSize ttl).keys)
  decided : ttl = none → past.Plain →
    (((past.cache maxSize ttl).get now k).1.isSome ↔
      (∃ s ∈ past, ∃ v, s.use = .put k v) ∧ (past.usedSince maxSize ttl k).card < max maxSize 1)
  order : (past.cache maxSize ttl).keys.Pairwise fun i j => i ∈ past.usedSince maxSize ttl j

namespace Recalls

variable (H : past.Recalls maxSize ttl) {now : Nat}

include H

theorem lastChange_of_get {v : α} (h : ((past.cache maxSize ttl).get now k).1 = some v) :
    ∃ t, past.lastChange k = some ⟨t, .put k v⟩ ∧ WithinLimit ttl t now := by
  obtain ⟨x, hfind, hnew, rfl⟩ := BoundedCache.get_eq_some_iff.1 h
  obtain rfl := BoundedCache.key_of_find? hfind
  exact ⟨x.storedAt, H.written x (List.mem_of_find?_eq_some hfind), (expired_cache_eq_false_iff past).1 hnew⟩

theorem le_card_of_get (hnow : ∀ s ∈ past, s.now ≤ now) {t : Nat} {v : α}
    (h : ((past.cache maxSize ttl).get now k).1 = none) (hlast : past.lastChange k = some ⟨t, .put k v⟩)
    (hlimit : WithinLimit ttl t now) : max maxSize 1 ≤ (past.usedSince maxSize ttl k).card := by
  have hgone : k ∉ (past.cache maxSize ttl).keys := by
    rw [← BoundedCache.find?_eq_none_iff]
    cases hfind : (past.cache maxSize ttl).find? k with
    | none => rfl
    | some x =>
      obtain rfl := BoundedCache.key_of_find? hfind
      have hwritten := H.written x (List.mem_of_find?_eq_some hfind)
      rw [hlast] at hwritten
      cases hwritten
      have hnew : (past.cache maxSize ttl).expired x.storedAt now = false :=
        (expired_cache_eq_false_iff past).2 hlimit
      cases h.symm.trans (BoundedCache.get_eq_some_iff.2 ⟨x, hfind, hnew, rfl⟩)
  rcases H.lost hlast hgone with ⟨s, hs, hold⟩ | hcard
  · exact absurd (hlimit.of_le (hnow s hs)) hold
  · exact hcard

end Recalls

/-- Without a time limit, what is held is found. -/
theorem isSome_get_iff (past : CacheHistory κ α) (now : Nat) (k : κ) :
    ((past.cache maxSize none).get now k).1.isSome ↔ k ∈ (past.cache maxSize none).keys := by
  constructor
  · intro hsome
    obtain ⟨v, hv⟩ := Option.isSome_iff_exists.1 hsome
    obtain ⟨x, hfind, -⟩ := BoundedCache.get_eq_some_iff.1 hv
    exact BoundedCache.mem_keys_of_find? hfind
  · intro hk
    cases hfind : (past.cache maxSize none).find? k with
    | none => exact absurd hk (BoundedCache.find?_eq_none_iff.1 hfind)
    | some x =>
      have hnew : (past.cache maxSize none).expired x.storedAt now = false :=
        (expired_cache_eq_false_iff past).2 nofun
      exact Option.isSome_iff_exists.2 ⟨_, BoundedCache.get_eq_some_iff.2 ⟨x, hfind, hnew, rfl⟩⟩

/-- Whatever was done to a cache before, the history explains a lookup. -/
theorem get_explained (maxSize : Nat) (ttl : Option Nat) (past : CacheHistory κ α) (now : Nat) (k : κ)
    (hnow : ∀ s ∈ past, s.now ≤ now) : past.Explained maxSize ttl now k := by
  have H : past.Recalls maxSize ttl := recalls past
  refine ⟨fun v => H.lastChange_of_get, fun t v => H.le_card_of_get hnow, fun hnone => ?_,
    fun hnone hp => ?_, H.order⟩
  · subst hnone
    exact isSome_get_iff past now k
  · subst hnone
    constructor
    · intro hsome
      obtain ⟨v, hv⟩ := Option.isSome_iff_exists.1 hsome
      obtain ⟨t, hlast, -⟩ := H.lastChange_of_get hv
      exact ⟨⟨_, List.mem_of_find?_eq_some hlast, v, rfl⟩,
        hp.card_usedSince_lt ((isSome_get_iff past now k).1 hsome)⟩
    · rintro ⟨⟨s, hs, v, hput⟩, hcard⟩
      obtain ⟨t, w, hlast⟩ := hp.exists_lastChange hs hput
      rw [Option.isSome_iff_ne_none]
      intro hmiss
      have hle := H.le_card_of_get hnow hmiss hlast nofun
      omega

/-- With room for two, the office is found at the last moment of its time, and the hall was driven out. -/
theorem get_explained_visits :
    (∀ s ∈ visits, s.now ≤ 7) ∧ (∀ s ∈ visits, s.use.isPlain = true) ∧
      ((visits.cache 2 (some 6)).get 7 "office").1 = some 1 ∧ visits.Explained 2 (some 6) 7 "office" ∧
      ((visits.cache 2 none).get 7 "hall").1 = none ∧ visits.Explained 2 none 7 "hall" :=
  ⟨by decide +kernel, by decide +kernel,
    by decide +kernel, get_explained 2 (some 6) visits 7 "office" (by decide +kernel),
    by decide +kernel, get_explained 2 none visits 7 "hall" (by decide +kernel)⟩

end CacheHistory

end DeviceNaming
