import DeviceNaming.Proofs.Cache.Indexes
import DeviceNaming.Proofs.Household.Contents

/-!
# What a resolver knows of its users

`ResolverState.known` is what the current household of a user knows at a time. Lookups, cleaning and what a search
leaves behind do not change it, neither now nor later; publishing a household changes it for one user.

The invariant of the memory of a resolver is `ResolverState.Sound`: every published household is sound, and the index
cache holds the numbers of published households.
-/

namespace DeviceNaming

attribute [local irreducible] Text.normalize Text.trimmed

/-- How long a household stays current, in milliseconds. -/
def Resolver.ttl (r : Resolver) : Nat := r.settings.indexTtlSecs * 1000

namespace ResolverState

/-- What the current household of a user knows, if there is one at the time. -/
def known (st : ResolverState) (t : Nat) (user : String) : Option Contents :=
  (st.cache.fresh? t user).bind fun n => (st.edition? n).map Household.contents

structure Sound (r : Resolver) (st : ResolverState) : Prop where
  reached : st.shared.Reached r.embedder
  ttl : st.cache.ttl = r.ttl
  cache : st.cache.Tidy (· < st.editions.length)
  editions : ∀ h ∈ st.editions, h.Sound r.embedder

variable {r : Resolver} {st : ResolverState}

theorem sound_start (r : Resolver) : r.start.Sound r :=
  ⟨reached_start _ _, rfl, .empty _, nofun⟩

theorem known_start (r : Resolver) (t : Nat) (user : String) : r.start.known t user = none := rfl

/-- What is known later is known now. -/
theorem known_mono {now t : Nat} (h : now ≤ t) {user : String} {c : Contents}
    (hsome : st.known t user = some c) : st.known now user = some c := by
  obtain ⟨n, hn, hc⟩ := Option.bind_eq_some_iff.1 hsome
  rw [known, IndexCache.fresh?_mono h hn, Option.bind_some, hc]

/-! ## Looking a household up -/

theorem Sound.current (H : st.Sound r) (user : String) : (st.current user false).2.Sound r :=
  ⟨H.reached, (st.cache.get_spec _ _).2.1.trans H.ttl, H.cache.get _ _, H.editions⟩

theorem known_current (st : ResolverState) {t : Nat} (h : st.shared.now ≤ t) (user v : String) :
    (st.current user false).2.known t v = st.known t v :=
  congrArg (·.bind fun n => (st.edition? n).map Household.contents) (IndexCache.fresh?_get h user v)

/-- A lookup gives the edition that the index cache holds for the user. -/
theorem of_current_eq_some {user : String} {n : Nat} {h : Household} {st' : ResolverState}
    (hc : st.current user false = (some (n, h), st')) :
    st'.editions[n]? = some h ∧ ∃ x, st.cache.entries.find? user = some x ∧ x.index = n := by
  have hfound : ((st.cache.get st.shared.now user false).1.bind fun n =>
      (st.edition? n).map fun h => (n, h)) = some (n, h) := congrArg Prod.fst hc
  have heditions : st.editions = st'.editions := congrArg (·.2.editions) hc
  obtain ⟨m, hm, hedition⟩ := Option.bind_eq_some_iff.1 hfound
  obtain ⟨h', hh', heq⟩ := Option.map_eq_some_iff.1 hedition
  cases heq
  exact ⟨heditions ▸ hh', IndexCache.exists_of_get hm⟩

/-- A lookup gives the household of the user, or the user has none. -/
theorem Sound.current_cases (H : st.Sound r) (user : String) :
    ((st.current user false).1 = none ∧ st.known st.shared.now user = none) ∨
      ∃ n h, (st.current user false).1 = some (n, h) ∧ st.editions[n]? = some h ∧
        h.Sound r.embedder ∧ st.known st.shared.now user = some h.contents := by
  have hget := (st.cache.get_spec st.shared.now user).1
  have hcurrent : (st.current user false).1 =
      (st.cache.fresh? st.shared.now user).bind fun n => (st.edition? n).map fun h => (n, h) :=
    congrArg (·.bind fun n => (st.edition? n).map fun h => (n, h)) hget
  cases hfresh : st.cache.fresh? st.shared.now user with
  | none => exact .inl ⟨by rw [hcurrent, hfresh]; rfl, by rw [known, hfresh]; rfl⟩
  | some n =>
    have hn : n < st.editions.length := H.cache.of_fresh? hfresh
    have hh : st.editions[n]? = some st.editions[n] := List.getElem?_eq_getElem hn
    refine .inr ⟨n, st.editions[n], ?_, hh, H.editions _ (List.getElem_mem hn), ?_⟩
    · rw [hcurrent, hfresh, Option.bind_some, edition?, hh]
      rfl
    · rw [known, hfresh, Option.bind_some, edition?, hh]
      rfl

/-! ## Lookups of embeddings, time -/

theorem Sound.withShared (H : st.Sound r) {s : Shared} (hs : s.Reached r.embedder) :
    { st with shared := s }.Sound r := ⟨hs, H.ttl, H.cache, H.editions⟩

/-! ## Publishing -/

theorem Sound.publish (H : st.Sound r) {h : Household} (hh : h.Sound r.embedder) (user : String) :
    (st.publish user h).2.Sound r := by
  have hlength : (st.editions ++ [h]).length = st.editions.length + 1 := List.length_append
  refine ⟨H.reached, H.ttl, ?_, fun h' hh' => ?_⟩
  · refine (H.cache.imp fun n hn => ?_).put ?_ _ _
    · exact hlength ▸ Nat.lt_succ_of_lt hn
    · exact hlength ▸ Nat.lt_succ_self _
  · exact List.forall_mem_append.2 ⟨H.editions, List.forall_mem_singleton.2 hh⟩ h' hh'

theorem Sound.known_publish (H : st.Sound r) (h : Household) (user v : String) (t : Nat) :
    (st.publish user h).2.known t v =
      if user = v then (if r.ttl < t - st.shared.now then none else some h.contents) else st.known t v := by
  have hfresh := IndexCache.fresh?_put st.cache st.shared.now t user v st.editions.length
  rw [H.ttl] at hfresh
  rw [known, show (st.publish user h).2.cache.fresh? t v = _ from hfresh]
  by_cases hv : v = user
  · rw [if_pos hv, if_pos hv.symm]
    by_cases hold : r.ttl < t - st.shared.now
    · rw [if_pos hold, if_pos hold]
      rfl
    · have hlast : (st.editions ++ [h])[st.editions.length]? = some h := List.getElem?_concat_length
      rw [if_neg hold, if_neg hold, Option.bind_some, edition?,
        show (st.publish user h).2.editions[st.editions.length]? = _ from hlast]
      rfl
  · rw [if_neg hv, if_neg fun hv' => hv hv'.symm, known]
    cases hn : st.cache.fresh? t v with
    | none => rfl
    | some n =>
      have hlt : n < st.editions.length := H.cache.of_fresh? hn
      have hold : (st.publish user h).2.edition? n = st.edition? n := List.getElem?_append_left hlt
      rw [Option.bind_some, Option.bind_some, hold]

/-! ## What a search leaves behind -/

theorem edition?_note {n : Nat} {h : Household} (hn : st.editions[n]? = some h) (x : EntityIndex)
    (s : Shared) (m : Nat) :
    (st.note n x s).edition? m = if n = m then some { h with entities := x } else st.edition? m := by
  rw [ResolverState.note, edition?, edition?, List.getElem?_modify]
  by_cases hmn : n = m
  · subst hmn
    simp [hn]
  · simp [hmn]

/-- A search changes no edition but the one that it reads. -/
theorem mem_editions_note {n : Nat} {h h' : Household} (hn : st.editions[n]? = some h) {x : EntityIndex}
    {s : Shared} (hh' : h' ∈ (st.note n x s).editions) : h' = { h with entities := x } ∨ h' ∈ st.editions := by
  obtain ⟨m, hm⟩ := List.mem_iff_getElem?.1 hh'
  have hedition := edition?_note hn x s m
  rw [edition?, hm] at hedition
  split at hedition
  · exact .inl (Option.some.inj hedition)
  · exact .inr (List.mem_of_getElem? hedition.symm)

theorem Sound.note (H : st.Sound r) {n : Nat} {h : Household} (hn : st.editions[n]? = some h) {x : EntityIndex}
    (hx : { h with entities := x }.Sound r.embedder) {s : Shared} (hs : s.Reached r.embedder) :
    (st.note n x s).Sound r := by
  refine ⟨hs, H.ttl, H.cache.imp fun m hm => ?_, fun h' hh' => ?_⟩
  · exact (List.length_modify ..).symm ▸ hm
  · rcases mem_editions_note hn hh' with rfl | hh'
    · exact hx
    · exact H.editions h' hh'

theorem known_note (st : ResolverState) {n : Nat} {h : Household} (hn : st.editions[n]? = some h) {x : EntityIndex}
    (hx : { h with entities := x }.contents = h.contents) (s : Shared) (t : Nat) (v : String) :
    (st.note n x s).known t v = st.known t v := by
  refine congrArg (fun f => (st.cache.fresh? t v).bind f) (funext fun m => ?_)
  rw [edition?_note hn]
  by_cases hmn : n = m
  · subst hmn
    rw [if_pos rfl, edition?, hn]
    exact congrArg some hx
  · rw [if_neg hmn]

/-! ## Dropping -/

theorem Sound.invalidate (H : st.Sound r) (user : String) : (st.invalidate user).2.Sound r :=
  ⟨H.reached, (IndexCache.invalidate_ttl ..).trans H.ttl, H.cache.invalidate _, H.editions⟩

theorem known_invalidate (user v : String) (t : Nat) :
    (st.invalidate user).2.known t v = if user = v then none else st.known t v := by
  rw [known, show (st.invalidate user).2.cache.fresh? t v = _ from IndexCache.fresh?_invalidate ..]
  by_cases hv : v = user
  · rw [if_pos hv, if_pos hv.symm]
    rfl
  · rw [if_neg hv, if_neg fun hv' => hv hv'.symm]
    rfl

theorem Sound.cleanup (H : st.Sound r) : st.cleanup.2.Sound r :=
  ⟨.cleanup H.reached, H.ttl, H.cache.cleanup _, H.editions⟩

theorem Sound.known_cleanup (H : st.Sound r) {t : Nat} (h : st.shared.now ≤ t) (v : String) :
    st.cleanup.2.known t v = st.known t v :=
  congrArg (·.bind fun n => (st.edition? n).map Household.contents)
    (IndexCache.fresh?_cleanup H.cache.distinct h v)

end ResolverState

end DeviceNaming
