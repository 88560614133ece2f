import DeviceNaming.Proofs.Cache.Indexes

/-!
# Histories of an index cache

A history is what was done to an index cache, and when, the latest first. Whatever was done for other users, and
however often it was looked up or swept, a user is given the index that was last put for the user, as long as nothing
dropped it since and it is not too old (`IndexHistory.due?`). Who asks to build an index anew is given none, and this
is not seen afterwards.

An index that grew too old is met by a lookup, a sweep, an invalidation, a clearing or the next index of its user.
Whatever meets it counts it once, so the indexes that came are those that are held and those that were counted:
`IndexHistory.explains`.
-/

namespace DeviceNaming

/-- What can be done to an index cache. -/
inductive IndexUse (ι : Type) where
  | get (user : String) (force : Bool)
  | put (user : String) (index : ι)
  | invalidate (user : String)
  | clear
  | cleanup
deriving DecidableEq, Repr

structure IndexStep (ι : Type) where
  now : Nat
  use : IndexUse ι
deriving DecidableEq, Repr

/-- What was done to an index cache, the latest first. -/
abbrev IndexHistory (ι : Type) := List (IndexStep ι)

variable {ι : Type}

/-! ## One use -/

namespace IndexCache

variable {c d : IndexCache ι} {now : Nat}

/-- What a lookup leaves: it is counted as forced, as a miss, as a miss that drops an old index, or as a hit. -/
theorem get_cases (c : IndexCache ι) (now : Nat) (user : String) (force : Bool) :
    (force = true ∧ c.get now user force = (none, { c with
      counters := { c.counters with forcedRebuilds := c.counters.forcedRebuilds + 1 } })) ∨
    (force = false ∧ c.entries.find? user = none ∧ c.get now user force = (none, { c with
      counters := { c.counters with misses := c.counters.misses + 1 } })) ∨
    ∃ x, force = false ∧ c.entries.find? user = some x ∧
      ((c.expired now x = true ∧ c.get now user force = (none, { c with
        entries := c.entries.erase user
        counters := { c.counters with
          misses := c.counters.misses + 1
          expirations := c.counters.expirations + 1 } })) ∨
      (c.expired now x = false ∧ c.get now user force = (some x.index, { c with
        counters := { c.counters with hits := c.counters.hits + 1 } }))) := by
  cases force with
  | true => exact .inl ⟨rfl, rfl⟩
  | false =>
    refine .inr ?_
    unfold get
    rw [if_neg Bool.false_ne_true]
    cases hfind : c.entries.find? user with
    | none => exact .inl ⟨rfl, rfl, rfl⟩
    | some x =>
      refine .inr ⟨x, rfl, rfl, ?_⟩
      cases hold : c.expired now x with
      | true => exact .inl ⟨rfl, if_pos hold⟩
      | false => exact .inr ⟨rfl, if_neg (hold ▸ Bool.false_ne_true)⟩

/-- A write replaces the index of its user or counts as a build. -/
theorem put_cases (c : IndexCache ι) (now : Nat) (user : String) (i : ι) :
    (c.entries.contains user = true ∧ c.put now user i = { c with
      entries := c.entries.put user ⟨i, now⟩
      counters := { c.counters with updates := c.counters.updates + 1 } }) ∨
    (c.entries.contains user = false ∧ c.put now user i = { c with
      entries := c.entries.put user ⟨i, now⟩
      counters := { c.counters with builds := c.counters.builds + 1 } }) := by
  unfold put
  cases c.entries.contains user with
  | true => exact .inl ⟨rfl, rfl⟩
  | false => exact .inr ⟨rfl, rfl⟩

theorem invalidate_cases (c : IndexCache ι) (user : String) :
    (c.entries.contains user = true ∧ c.invalidate user = (true, { c with
      entries := c.entries.erase user
      counters := { c.counters with invalidations := c.counters.invalidations + 1 } })) ∨
    (c.entries.contains user = false ∧ c.invalidate user = (false, c)) := by
  unfold invalidate
  cases c.entries.contains user with
  | true => exact .inl ⟨rfl, rfl⟩
  | false => exact .inr ⟨rfl, rfl⟩

theorem expired_congr (httl : d.ttl = c.ttl) (now : Nat) : d.expired now = c.expired now := by
  funext x
  rw [expired, httl, expired]

/-- What is given, and what is held afterwards, depends on what is held and not on what was counted. -/
theorem get_congr (h : d.entries = c.entries) (httl : d.ttl = c.ttl) (now : Nat) (user : String) (force : Bool) :
    (d.get now user force).1 = (c.get now user force).1 ∧
      (d.get now user force).2.entries = (c.get now user force).2.entries := by
  unfold get
  rw [h, expired_congr httl]
  cases force with
  | true => exact ⟨rfl, rfl⟩
  | false =>
    cases c.entries.find? user with
    | none => exact ⟨rfl, rfl⟩
    | some x =>
      dsimp only
      cases c.expired now x with
      | true => exact ⟨rfl, rfl⟩
      | false => exact ⟨rfl, rfl⟩

/-- The lookups that were counted. -/
def lookups (c : IndexCache ι) : Nat := c.counters.hits + c.counters.misses + c.counters.forcedRebuilds

/-- The indexes that were put. -/
def writes (c : IndexCache ι) : Nat := c.counters.builds + c.counters.updates

/-- The indexes that are held and those that were dropped. -/
def accounted (c : IndexCache ι) : Nat := c.size + c.counters.invalidations + c.counters.expirations

/-- Every index that came for a user without one is held or was dropped. -/
def Balanced (c : IndexCache ι) : Prop := c.counters.builds = c.accounted

end IndexCache

namespace IndexUse

/-- The index cache after it was used at a time. -/
def apply (now : Nat) : IndexUse ι → IndexCache ι → IndexCache ι
  | get user force, c => (c.get now user force).2
  | put user i, c => c.put now user i
  | invalidate user, c => (c.invalidate user).2
  | clear, c => c.clear
  | cleanup, c => (c.cleanup now).2

/-- Does it put an index for a user, or drop the index of the user whatever its age? -/
def changes (user : String) : IndexUse ι → Bool
  | put u _ => u = user
  | invalidate u => u = user
  | clear => true
  | _ => false

def isGet : IndexUse ι → Bool
  | get .. => true
  | _ => false

def isPut : IndexUse ι → Bool
  | put .. => true
  | _ => false

variable {c d : IndexCache ι}

theorem ttl_apply (u : IndexUse ι) (now : Nat) (c : IndexCache ι) : (u.apply now c).ttl = c.ttl := by
  cases u with
  | get user force =>
    obtain ⟨-, hget⟩ | ⟨-, -, hget⟩ | ⟨x, -, -, ⟨-, hget⟩ | ⟨-, hget⟩⟩ := c.get_cases now user force <;>
      rw [apply, hget]
  | put user i => rfl
  | invalidate user => exact c.invalidate_ttl user
  | clear => rfl
  | cleanup => rfl

theorem nodup_keys_apply (h : c.entries.keys.Nodup) (u : IndexUse ι) (now : Nat) :
    (u.apply now c).entries.keys.Nodup := by
  have H := IndexCache.Tidy.of_distinct h
  cases u with
  | get user force =>
    cases force with
    | true => exact h
    | false => exact (H.get now user).distinct
  | put user i => exact (H.put trivial now user).distinct
  | invalidate user => exact (H.invalidate user).distinct
  | clear => exact List.nodup_nil
  | cleanup => exact (H.cleanup now).distinct

/-- What a use leaves depends on what is held and not on what was counted. -/
theorem entries_apply_congr (h : d.entries = c.entries) (httl : d.ttl = c.ttl) (u : IndexUse ι) (now : Nat) :
    (u.apply now d).entries = (u.apply now c).entries := by
  cases u with
  | get user force => exact (IndexCache.get_congr h httl now user force).2
  | put user i => exact congrArg (·.put user ⟨i, now⟩) h
  | invalidate user =>
    rw [apply, apply, IndexCache.invalidate, h, IndexCache.invalidate]
    split
    · rfl
    · exact h
  | clear => rfl
  | cleanup =>
    simp only [apply, IndexCache.cleanup, h, IndexCache.expired_congr httl now]

/-- The index that a use leaves fresh for a user whose index it puts or drops. -/
def given (ttl now t : Nat) : IndexUse ι → Option ι
  | put _ i => if ttl < t - now then none else some i
  | _ => none

/-- What a user is given later is decided by the use that puts or drops the index of the user, and by no other. -/
theorem fresh?_apply (hc : c.entries.keys.Nodup) {now t : Nat} (h : now ≤ t) (u : IndexUse ι) (user : String) :
    (u.apply now c).fresh? t user = if u.changes user then u.given c.ttl now t else c.fresh? t user := by
  cases u with
  | get v force =>
    cases force with
    | true => rfl
    | false => exact IndexCache.fresh?_get h v user
  | put v i =>
    rw [apply, IndexCache.fresh?_put]
    by_cases hv : user = v
    · subst hv
      simp [changes, given]
    · have hv' : v ≠ user := fun heq => hv heq.symm
      simp [changes, hv, hv']
  | invalidate v =>
    rw [apply, IndexCache.fresh?_invalidate]
    by_cases hv : user = v
    · subst hv
      simp [changes, given]
    · have hv' : v ≠ user := fun heq => hv heq.symm
      simp [changes, hv, hv']
  | clear => rfl
  | cleanup => exact IndexCache.fresh?_cleanup hc h user

/-! ## Counting -/

theorem lookups_apply (u : IndexUse ι) (now : Nat) (c : IndexCache ι) :
    (u.apply now c).lookups = c.lookups + u.isGet.toNat := by
  cases u with
  | get user force =>
    obtain ⟨-, hget⟩ | ⟨-, -, hget⟩ | ⟨x, -, -, ⟨-, hget⟩ | ⟨-, hget⟩⟩ := c.get_cases now user force <;>
      simp only [apply, hget, IndexCache.lookups, isGet, Bool.toNat_true] <;> omega
  | put user i => obtain ⟨-, hput⟩ | ⟨-, hput⟩ := c.put_cases now user i <;> rw [apply, hput] <;> rfl
  | invalidate user =>
    obtain ⟨-, hinvalidate⟩ | ⟨-, hinvalidate⟩ := c.invalidate_cases user <;> rw [apply, hinvalidate] <;> rfl
  | clear => rfl
  | cleanup => rfl

theorem writes_apply (u : IndexUse ι) (now : Nat) (c : IndexCache ι) :
    (u.apply now c).writes = c.writes + u.isPut.toNat := by
  cases u with
  | get user force =>
    obtain ⟨-, hget⟩ | ⟨-, -, hget⟩ | ⟨x, -, -, ⟨-, hget⟩ | ⟨-, hget⟩⟩ := c.get_cases now user force <;>
      rw [apply, hget] <;> rfl
  | put user i =>
    obtain ⟨-, hput⟩ | ⟨-, hput⟩ := c.put_cases now user i <;>
      simp only [apply, hput, IndexCache.writes, isPut, Bool.toNat_true] <;> omega
  | invalidate user =>
    obtain ⟨-, hinvalidate⟩ | ⟨-, hinvalidate⟩ := c.invalidate_cases user <;> rw [apply, hinvalidate] <;> rfl
  | clear => rfl
  | cleanup => rfl

theorem balanced_apply (hc : c.entries.keys.Nodup) (H : c.Balanced) (u : IndexUse ι) (now : Nat) :
    (u.apply now c).Balanced := by
  unfold IndexCache.Balanced IndexCache.accounted IndexCache.size at H ⊢
  cases u with
  | get user force =>
    obtain ⟨-, hget⟩ | ⟨-, -, hget⟩ | ⟨x, -, hfind, ⟨-, hget⟩ | ⟨-, hget⟩⟩ := c.get_cases now user force
    · rw [apply, hget]
      exact H
    · rw [apply, hget]
      exact H
    · have hcontains : c.entries.contains user = true := Option.isSome_iff_exists.2 ⟨x, hfind⟩
      have hsize := Roster.size_erase hc hcontains
      simp only [apply, hget]
      omega
    · rw [apply, hget]
      exact H
  | put user i =>
    have hsize := c.entries.size_put user ⟨i, now⟩
    obtain ⟨hcontains, hput⟩ | ⟨hcontains, hput⟩ := c.put_cases now user i
    · rw [if_pos hcontains] at hsize
      simp only [apply, hput]
      omega
    · rw [if_neg (hcontains ▸ Bool.false_ne_true)] at hsize
      simp only [apply, hput]
      omega
  | invalidate user =>
    obtain ⟨hcontains, hinvalidate⟩ | ⟨-, hinvalidate⟩ := c.invalidate_cases user
    · have hsize := Roster.size_erase hc hcontains
      simp only [apply, hinvalidate]
      omega
    · rw [apply, hinvalidate]
      exact H
  | clear =>
    have hempty : (Roster.empty : Roster (CachedIndex ι)).size = 0 := rfl
    simp only [apply, IndexCache.clear]
    omega
  | cleanup =>
    have hle : (c.entries.items.filter fun p => !c.expired now p.2).length ≤ c.entries.items.length :=
      List.length_filter_le _ _
    simp only [apply, IndexCache.cleanup, Roster.size] at H ⊢
    omega

end IndexUse

/-! ## Histories -/

namespace IndexHistory

/-- The index cache that a history leaves of an empty one. -/
def cache (ttl : Nat) : IndexHistory ι → IndexCache ι
  | [] => .empty ttl
  | s :: past => s.use.apply s.now (cache ttl past)

/-- The step that last put an index for a user or dropped it, whatever its age. -/
def lastChange (past : IndexHistory ι) (user : String) : Option (IndexStep ι) :=
  past.find? fun s => s.use.changes user

/-- The index that a user was last given, as long as nothing dropped it since and it is not too old. -/
def due? (ttl : Nat) (past : IndexHistory ι) (now : Nat) (user : String) : Option ι :=
  (past.lastChange user).bind fun s => s.use.given ttl s.now now

variable {ttl now t : Nat} {past : IndexHistory ι} {user : String}

theorem lastChange_cons (s : IndexStep ι) (past : IndexHistory ι) (user : String) :
    lastChange (s :: past) user = if s.use.changes user then some s else past.lastChange user := by
  rw [lastChange, List.find?_cons]
  cases s.use.changes user <;> rfl

theorem ttl_cache (past : IndexHistory ι) : (past.cache ttl).ttl = ttl := by
  induction past with
  | nil => rfl
  | cons s past ih => exact (s.use.ttl_apply ..).trans ih

theorem nodup_keys (past : IndexHistory ι) : (past.cache ttl).entries.keys.Nodup := by
  induction past with
  | nil => exact List.nodup_nil
  | cons s past ih => exact IndexUse.nodup_keys_apply ih ..

/-- A user is given what is due. -/
theorem fresh?_cache (past : IndexHistory ι) (ht : ∀ s ∈ past, s.now ≤ t) (user : String) :
    (past.cache ttl).fresh? t user = past.due? ttl t user := by
  induction past with
  | nil => rfl
  | cons s past ih =>
    obtain ⟨hs, hpast⟩ := List.forall_mem_cons.1 ht
    rw [cache, IndexUse.fresh?_apply (nodup_keys past) hs, ttl_cache, ih hpast]
    unfold due?
    rw [lastChange_cons]
    cases s.use.changes user <;> rfl

theorem due?_eq_some_iff {i : ι} :
    past.due? ttl now user = some i ↔
      ∃ builtAt, past.lastChange user = some ⟨builtAt, .put user i⟩ ∧ now - builtAt ≤ ttl := by
  unfold due?
  constructor
  · intro h
    obtain ⟨⟨builtAt, u⟩, hlast, hgiven⟩ := Option.bind_eq_some_iff.1 h
    have hchanges := List.find?_some hlast
    cases u with
    | put v j =>
      have hv : v = user := of_decide_eq_true hchanges
      simp only [IndexUse.given] at hgiven
      split at hgiven
      · cases hgiven
      · rename_i hnew
        cases hgiven
        exact ⟨builtAt, hv ▸ hlast, Nat.le_of_not_lt hnew⟩
    | _ => cases hgiven
  · rintro ⟨builtAt, hlast, hnew⟩
    rw [hlast, Option.bind_some]
    exact if_neg (Nat.not_lt.2 hnew)

/-- What was asked for by force is not seen afterwards. -/
theorem entries_cache_forced (later past : IndexHistory ι) (now : Nat) (user : String) :
    ((later ++ ⟨now, .get user true⟩ :: past).cache ttl).entries = ((later ++ past).cache ttl).entries := by
  induction later with
  | nil => rfl
  | cons s later ih => exact IndexUse.entries_apply_congr ih ((ttl_cache _).trans (ttl_cache _).symm) s.use s.now

/-! ## Counting -/

theorem lookups_cache (past : IndexHistory ι) :
    (past.cache ttl).lookups = past.countP fun s => s.use.isGet := by
  induction past with
  | nil => rfl
  | cons s past ih =>
    rw [cache, IndexUse.lookups_apply, ih, List.countP_cons]
    cases s.use.isGet <;> rfl

theorem writes_cache (past : IndexHistory ι) :
    (past.cache ttl).writes = past.countP fun s => s.use.isPut := by
  induction past with
  | nil => rfl
  | cons s past ih =>
    rw [cache, IndexUse.writes_apply, ih, List.countP_cons]
    cases s.use.isPut <;> rfl

theorem balanced_cache (past : IndexHistory ι) : (past.cache ttl).Balanced := by
  induction past with
  | nil => rfl
  | cons s past ih => exact IndexUse.balanced_apply (nodup_keys past) ih s.use s.now

/-- What the history of an index cache says about its lookups and its counters. -/
structure Explained (ttl : Nat) (past : IndexHistory ι) (now : Nat) : Prop where
  /-- a user is given the index that was last put for the user, unless it is too old -/
  given : ∀ user i, ((past.cache ttl).get now user false).1 = some i ↔
    ∃ builtAt, past.lastChange user = some ⟨builtAt, .put user i⟩ ∧ now - builtAt ≤ ttl
  /-- who is about to build an index anew is given none -/
  forced : ∀ user, ((past.cache ttl).get now user true).1 = none
  /-- and that is not seen afterwards -/
  unseen : ∀ user (later : IndexHistory ι) t v force,
    (((later ++ ⟨now, .get user true⟩ :: past).cache ttl).get t v force).1 =
      (((later ++ past).cache ttl).get t v force).1
  lookups : (past.cache ttl).counters.hits + (past.cache ttl).counters.misses +
    (past.cache ttl).counters.forcedRebuilds = past.countP fun s => s.use.isGet
  writes : (past.cache ttl).counters.builds + (past.cache ttl).counters.updates =
    past.countP fun s => s.use.isPut
  balance : (past.cache ttl).counters.builds = (past.cache ttl).size +
    (past.cache ttl).counters.invalidations + (past.cache ttl).counters.expirations

/-- Whatever was done to an index cache before, the history explains its lookups and its counters. -/
theorem explains (ttl : Nat) (past : IndexHistory ι) (now : Nat) (hnow : ∀ s ∈ past, s.now ≤ now) :
    past.Explained ttl now where
  given user i := by rw [(IndexCache.get_spec _ now user).1, fresh?_cache past hnow, due?_eq_some_iff]
  forced _ := rfl
  unseen user later t v force :=
    (IndexCache.get_congr (entries_cache_forced later past now user)
      ((ttl_cache _).trans (ttl_cache _).symm) t v force).1
  lookups := lookups_cache past
  writes := writes_cache past
  balance := balanced_cache past

/-- Ann's index is put twice and Bob's once; Bob's grows too old and is met by a lookup, and Ann asks for a new one. -/
def twoUsers : IndexHistory Nat :=
  [⟨9, .get "ann" true⟩, ⟨9, .cleanup⟩, ⟨9, .get "bob" false⟩, ⟨8, .invalidate "carol"⟩, ⟨5, .put "ann" 3⟩,
    ⟨2, .put "bob" 2⟩, ⟨1, .put "ann" 1⟩]

/-- At the last moment of its time Ann is given the later index, and Bob is given none. -/
theorem explains_twoUsers :
    (∀ s ∈ twoUsers, s.now ≤ 11) ∧ ((twoUsers.cache 6).get 11 "ann" false).1 = some 3 ∧
      ((twoUsers.cache 6).get 11 "bob" false).1 = none ∧
      (twoUsers.cache 6).counters = ⟨0, 1, 1, 2, 1, 0, 1⟩ ∧ twoUsers.Explained 6 11 :=
  ⟨by decide, by decide +kernel, by decide +kernel, by decide +kernel, explains 6 twoUsers 11 (by decide)⟩

end IndexHistory

end DeviceNaming
