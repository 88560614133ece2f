import DeviceNaming.Proofs.Area.Names
import DeviceNaming.Proofs.Household.Run

/-!
# The areas of each user

Whatever the provider answers, the areas in the household of a user are those that were registered since the
household was last rebuilt: `Resolver.tells_run`. The invariant is `ResolverState.AreasHold`, for a property of users
and of registries; commands about devices, queries and the caches leave the areas alone, and a change of the areas of
one user leaves those of the others alone.
-/

namespace DeviceNaming

attribute [local irreducible] Text.normalize Text.trimmed

namespace Command

/-- What a command adds to the registrations of a user. -/
def onAreaLog (user : String) (log : AreaLog) : Command → AreaLog
  | rebuild u areas _ => if u = user then areas.foldl AreaLog.enter [] else log
  | upsertArea u record => if u = user then log.enter record else log
  | _ => log

/-- The registrations for a user since the last rebuilding. -/
def areaLog (user : String) (cmds : List Command) : AreaLog := cmds.foldl (onAreaLog user) []

end Command

namespace Household

variable {h : Household} {log : AreaLog}

theorem areas_addEntities (e : Embedder) (rs : List EntityRecord) (h : Household) (s : Shared) :
    (addEntities e rs h s).1.areas = h.areas := by
  induction rs generalizing h s with
  | nil => rfl
  | cons r rs ih =>
    rw [addEntities_cons]
    exact ih _ _

theorem tells_addAreas (e : Embedder) (rs : List AreaRecord) {h : Household} {log : AreaLog}
    (T : h.areas.Tells log) (s : Shared) : (addAreas e rs h s).1.areas.Tells (rs.foldl AreaLog.enter log) := by
  induction rs generalizing h log s with
  | nil => exact T
  | cons r rs ih =>
    rw [addAreas_cons]
    exact ih (h := (h.addArea e r s).1) (T.add e r s) _

theorem tells_build (e : Embedder) (settings : Settings) (areas : List AreaRecord)
    (entities : List EntityRecord) (s : Shared) :
    (build e settings areas entities s).1.areas.Tells (areas.foldl AreaLog.enter []) := by
  have T := tells_addAreas e areas (h := empty settings) (AreaRegistry.tells_empty _) s
  rcases hadd : addAreas e areas (empty settings) s with ⟨h, t⟩
  rw [hadd] at T
  rw [build, hadd]
  exact (areas_addEntities e entities h t).symm ▸ T

end Household

variable {P Q : String → AreaRegistry → Prop} {st : ResolverState}

namespace ResolverState

/-- The areas of the household that is held for a user have the property of the user. -/
structure AreasHold (P : String → AreaRegistry → Prop) (st : ResolverState) : Prop where
  distinct : st.cache.entries.keys.Nodup
  held : ∀ {user x}, st.cache.entries.find? user = some x →
    ∃ h, st.editions[x.index]? = some h ∧ P user h.areas

namespace AreasHold

/-- Entries may be dropped from the index cache. -/
theorem of_find? (H : st.AreasHold P) {cache : IndexCache Nat} (hdistinct : cache.entries.keys.Nodup)
    (hfind : ∀ {v x}, cache.entries.find? v = some x → st.cache.entries.find? v = some x) (s : Shared) :
    AreasHold P { st with cache, shared := s } :=
  ⟨hdistinct, fun hx => H.held (hfind hx)⟩

theorem withShared (H : st.AreasHold P) (s : Shared) : AreasHold P { st with shared := s } :=
  H.of_find? H.distinct id s

/-- The household that a lookup gives has the property. -/
theorem of_current (H : st.AreasHold P) {user : String} {n : Nat} {h : Household} {st' : ResolverState}
    (hc : st.current user false = (some (n, h), st')) : st'.editions[n]? = some h ∧ P user h.areas := by
  obtain ⟨hn, x, hx, rfl⟩ := of_current_eq_some hc
  have heditions : st.editions = st'.editions := congrArg (·.2.editions) hc
  obtain ⟨h', hh', hP⟩ := H.held hx
  rw [heditions, hn] at hh'
  cases hh'
  exact ⟨hn, hP⟩

theorem current (H : st.AreasHold P) {user : String} {found : Option (Nat × Household)}
    {st' : ResolverState} (hc : st.current user false = (found, st')) : st'.AreasHold P := by
  obtain ⟨-, rfl⟩ := Prod.mk.inj hc
  exact H.of_find? ((IndexCache.Tidy.of_distinct H.distinct).get _ _).distinct IndexCache.find?_of_find?_get _

/-- A user for whom a lookup gives nothing has no household. -/
theorem find?_of_current (H : st.AreasHold P) {user : String} {st' : ResolverState}
    (hc : st.current user false = (none, st')) : st'.cache.entries.find? user = none := by
  have hfound : ((st.cache.get st.shared.now user false).1.bind fun n =>
      (st.edition? n).map fun h => (n, h)) = none := congrArg Prod.fst hc
  have hcache : (st.cache.get st.shared.now user false).2 = st'.cache := congrArg (·.2.cache) hc
  rw [← hcache]
  refine IndexCache.find?_get_of_eq_none ?_
  cases hget : (st.cache.get st.shared.now user false).1 with
  | none => rfl
  | some n =>
    obtain ⟨x, hx, rfl⟩ := IndexCache.exists_of_get hget
    obtain ⟨h, hh, -⟩ := H.held hx
    rw [hget, Option.bind_some, edition?, hh] at hfound
    cases hfound

theorem publish (H : st.AreasHold P) {user : String} {h : Household} (hh : Q user h.areas)
    (hother : ∀ {v g}, v ≠ user → P v g → Q v g) : (st.publish user h).2.AreasHold Q := by
  refine ⟨Roster.nodup_keys_put H.distinct _ _, fun {v x} hx => ?_⟩
  change (st.cache.entries.put user _).find? v = some x at hx
  rw [Roster.find?_put] at hx
  split at hx
  · rename_i hv
    cases hx
    subst hv
    exact ⟨h, List.getElem?_concat_length, hh⟩
  · rename_i hv
    obtain ⟨h', hh', hP⟩ := H.held hx
    have hlt := (List.getElem?_eq_some_iff.1 hh').1
    exact ⟨h', (List.getElem?_append_left hlt).trans hh', hother hv hP⟩

theorem note (H : st.AreasHold P) {n : Nat} {h : Household} (hn : st.editions[n]? = some h)
    (x : EntityIndex) (s : Shared) : (st.note n x s).AreasHold P := by
  refine ⟨H.distinct, fun {v y} hy => ?_⟩
  obtain ⟨h', hh', hP⟩ := H.held hy
  have hedition := edition?_note hn x s y.index
  by_cases hny : n = y.index
  · subst hny
    rw [hn] at hh'
    cases hh'
    exact ⟨_, hedition.trans (if_pos rfl), hP⟩
  · exact ⟨h', (hedition.trans (if_neg hny)).trans hh', hP⟩

theorem invalidate (H : st.AreasHold P) (user : String) : (st.invalidate user).2.AreasHold P := by
  have hdistinct := (IndexCache.Tidy.of_distinct H.distinct).invalidate user
  refine H.of_find? hdistinct.distinct (fun {v x} hx => ?_) st.shared
  rw [IndexCache.invalidate_entries] at hx
  split at hx
  · cases hx
  · exact hx

theorem cleanup (H : st.AreasHold P) : st.cleanup.2.AreasHold P := by
  have hdistinct := (IndexCache.Tidy.of_distinct H.distinct).cleanup st.shared.now
  refine H.of_find? hdistinct.distinct (fun {v x} hx => ?_) _
  have hfind := Roster.find?_filter H.distinct (fun p => !st.cache.expired st.shared.now p.2) v
  exact (Option.filter_eq_some_iff.1 (hfind.symm.trans hx)).1

end AreasHold

end ResolverState

namespace Resolver

open ResolverState

variable {r : Resolver}

theorem areasHold_update (H : st.AreasHold P) {user : String}
    {change : Household → Shared → Household × Shared}
    (hchange : ∀ {h : Household} {s : Shared}, P user h.areas → Q user (change h.fork s).1.areas)
    (hother : ∀ {v g}, v ≠ user → P v g → Q v g) : (update user change st).2.AreasHold Q := by
  rcases hc : st.current user false with ⟨_ | ⟨n, h⟩, st'⟩
  · -- nobody else is concerned, and the user has no household
    have H' := H.current hc
    rw [update, hc]
    refine ⟨H'.distinct, fun {v x} hx => ?_⟩
    obtain ⟨h, hh, hP⟩ := H'.held hx
    refine ⟨h, hh, hother ?_ hP⟩
    rintro rfl
    cases (H.find?_of_current hc).symm.trans hx
  · rw [update, hc]
    exact ((H.current hc).withShared _).publish (hchange (H.of_current hc).2) hother

theorem areasHold_removeEntity (H : st.AreasHold P) (user entityId : String) :
    (removeEntity user entityId st).2.AreasHold P := by
  rcases hc : st.current user false with ⟨_ | ⟨n, h⟩, st'⟩
  · rw [removeEntity, hc]
    exact H.current hc
  · rw [removeEntity, hc]
    dsimp only
    split
    · exact (H.current hc).publish (H.of_current hc).2 fun _ hP => hP
    · exact H.current hc

theorem areasHold_resolve (H : st.AreasHold P) (r : Resolver) (user query : String) (domain : Option String)
    (limit : Option Nat) : (r.resolve user query domain limit st).2.AreasHold P := by
  rcases hc : st.current user false with ⟨_ | ⟨n, h⟩, st'⟩
  · rw [resolve, hc]
    exact H.current hc
  · rw [resolve, hc]
    exact (H.current hc).note (H.of_current hc).1 _ _

/-- A command registers areas for one user. -/
theorem tells_perform {log : String → AreaLog} (H : st.AreasHold fun user g => g.Tells (log user))
    (r : Resolver) (cmd : Command) :
    (r.perform st cmd).AreasHold fun user g => g.Tells (cmd.onAreaLog user (log user)) := by
  cases cmd with
  | rebuild user areas entities =>
    refine (H.withShared _).publish ?_ fun {v g} hv T => ?_
    · rw [Command.onAreaLog, if_pos rfl]
      exact Household.tells_build ..
    · rw [Command.onAreaLog, if_neg fun h => hv h.symm]
      exact T
  | upsertEntity user record => exact areasHold_update H (fun T => T) fun _ T => T
  | upsertArea user record =>
    refine areasHold_update H (fun {h s} T => ?_) fun {v g} hv T => ?_
    · rw [Command.onAreaLog, if_pos rfl]
      exact T.add r.embedder record s
    · rw [Command.onAreaLog, if_neg fun h => hv h.symm]
      exact T
  | removeEntity user entityId => exact areasHold_removeEntity H user entityId
  | invalidate user => exact H.invalidate user
  | cleanup => exact H.cleanup
  | resolve user query domain limit => exact areasHold_resolve H r user query domain limit
  | advance ms => exact H.withShared _

/-- After any commands, the areas of the household that is held for a user are those of the registrations since it
was last rebuilt. -/
theorem tells_run (r : Resolver) (cmds : List Command) :
    (r.run cmds).AreasHold fun user g => g.Tells (Command.areaLog user cmds) := by
  suffices hfold : ∀ (st : ResolverState) (log : String → AreaLog),
      (st.AreasHold fun user g => g.Tells (log user)) →
      (cmds.foldl r.perform st).AreasHold fun user g =>
        g.Tells (cmds.foldl (Command.onAreaLog user) (log user)) from
    hfold r.start (fun _ => []) ⟨List.nodup_nil, nofun⟩
  induction cmds with
  | nil => exact fun st log H => H
  | cons cmd cmds ih =>
    intro st log H
    exact ih _ (fun user => cmd.onAreaLog user (log user)) (tells_perform H r cmd)

end Resolver

end DeviceNaming
