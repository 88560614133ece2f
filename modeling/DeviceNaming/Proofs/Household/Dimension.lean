import DeviceNaming.Proofs.Household.Contents

/-!
# The dimension of all embeddings

Embeddings enter a household through lookups and then stay with the names of devices and with areas. With a
provider that declares a dimension, whatever it answers over time, all of them are of this dimension (`Measured`, for
an index, a registry and a household). So two embeddings that are compared are of one dimension, and nothing that is
done with a household fails: `Household.Measured.apply` for its uses, `Household.Measured.resolveIn` for queries.
-/

namespace DeviceNaming

attribute [local irreducible] Text.normalize Text.trimmed

variable {e : Embedder} {s : Shared}

/-! ## Areas -/

namespace AreaRegistry

variable {g : AreaRegistry}

theorem Measured.add (M : g.Measured e) (hd : e.Declared) (hs : s.Keeps e.fitting) (r : AreaRecord) :
    (g.add e r s).1.Measured e ∧ (g.add e r s).2.Keeps e.fitting := by
  unfold AreaRegistry.add
  split
  · exact ⟨M, hs⟩
  · obtain ⟨hends, ht⟩ := hs.embed hd.obeys r.name
    refine ⟨M.register fun v hv => ?_, ht⟩
    have hready : (e.embed r.name s).1 = .ready v := Lookup.embedding?_eq_some_iff.1 hv
    rw [hready] at hends
    exact hends.fits

theorem Measured.resolveBySimilarity (M : g.Measured e) (hd : e.Declared) (hs : s.Keeps e.fitting)
    (text : String) :
    ∃ found t, g.resolveBySimilarity e text s = (.ok found, t) ∧ t.Keeps e.fitting := by
  obtain ⟨hends, ht⟩ := hs.embed hd.obeys text
  exact ⟨_, _, M.resolveBySimilarity_eq fun v hv => (hv ▸ hends).fits, ht⟩

/-- Finding the area of a text does not fail. -/
theorem Measured.resolve (M : g.Measured e) (hd : e.Declared) (hs : s.Keeps e.fitting) (text : String)
    (semantic : Bool) :
    ∃ found t, g.resolve e text semantic s = (.ok found, t) ∧ t.Keeps e.fitting := by
  unfold AreaRegistry.resolve
  cases Text.normalize? text with
  | none => exact ⟨none, s, rfl, hs⟩
  | some name =>
    dsimp only
    cases g.names.find? name with
    | some areaId => exact ⟨some areaId, s, rfl, hs⟩
    | none =>
      cases semantic with
      | false => exact ⟨_, s, rfl, hs⟩
      | true =>
        obtain ⟨found, t, hfound, ht⟩ := M.resolveBySimilarity hd hs name
        rw [if_pos rfl, hfound]
        cases found with
        | none => exact ⟨_, t, rfl, ht⟩
        | some areaId => exact ⟨some areaId, t, rfl, ht⟩

end AreaRegistry

/-! ## Devices -/

namespace EntityIndex

variable {x : EntityIndex}

theorem Measured.add (M : x.Measured e) (hd : e.Declared) (hs : s.Keeps e.fitting) (r : EntityRecord) :
    (x.add e r s).1.Measured e ∧ (x.add e r s).2.Keeps e.fitting := by
  obtain ⟨hends, ht⟩ := hs.embedMany hd.obeys (r.givenNames.map (·.2))
  refine ⟨M.store fun v hv => ?_, ht⟩
  exact Lookup.fits_of_mem hends (EntityEntry.ready_of_mem_embeddings hv)

theorem Measured.rank (M : x.Measured e) (hd : e.Declared) (hs : s.Keeps e.fitting) (q : Query) :
    ∃ found z t, x.rank e q s = (.ok found, z, t) ∧ t.Keeps e.fitting := by
  obtain ⟨hends, ht⟩ := hs.embed hd.obeys q.text
  unfold EntityIndex.rank
  rcases hembed : e.embed q.text s with ⟨v | reason, t⟩
  · rw [hembed] at hends ht
    dsimp only
    rw [searchSimilar_eq M hends.fits q]
    exact ⟨_, _, t, rfl, ht⟩
  · rw [hembed] at ht
    exact ⟨_, _, t, rfl, ht⟩

/-- A search does not fail. -/
theorem Measured.search (M : x.Measured e) (hd : e.Declared) (hs : s.Keeps e.fitting) (q : Query) :
    ∃ found z t, x.search e q s = (.ok found, z, t) ∧ z.Measured e ∧ t.Keeps e.fitting := by
  have A := alike_search e q x s
  cases hq : Text.normalize? q.text with
  | none => exact ⟨[], x, s, search_of_normalize?_eq_none hq, M, hs⟩
  | some text =>
    rcases hget : x.queries.get s.now { q with text } with ⟨found | found, queries⟩
    · have M' : (x.looked queries).Measured e := M.of_alike ⟨rfl, rfl, rfl, rfl⟩
      obtain ⟨found, z, t, hrank, ht⟩ := M'.rank hd hs { q with text }
      have hsearch := search_miss hq hget hrank
      rw [hsearch] at A
      exact ⟨_, _, _, hsearch, M.of_alike A, ht⟩
    · obtain ⟨z, hsearch, A', -⟩ := search_hit (e := e) hq hget
      exact ⟨found, z, s, hsearch, M.of_alike A', hs⟩

end EntityIndex

/-! ## Households -/

namespace Household

variable {h : Household}

/-- All embeddings of devices and areas are of the declared dimension. -/
structure Measured (e : Embedder) (h : Household) : Prop where
  entities : h.entities.Measured e
  areas : h.areas.Measured e

/-- What can be done with a household by itself. -/
inductive Use where
  | addArea (r : AreaRecord)
  | addEntity (r : EntityRecord)
  | removeEntity (entityId : String)
  | search (q : Query)
  | resolveArea (text : String) (semantic : Bool)
  | clearEntities
  | clearAreas
  | clearQueries
  | cleanupQueries

/-- Whether embeddings could be compared, and the household after it was used. -/
def Use.apply (e : Embedder) (h : Household) (s : Shared) :
    Use → Except DimensionMismatch Unit × Household × Shared
  | addArea r => (.ok (), h.addArea e r s)
  | addEntity r => (.ok (), h.addEntity e r s)
  | removeEntity entityId => (.ok (), { h with entities := (h.entities.remove entityId).2 }, s)
  | search q =>
      let (found, entities, s) := h.entities.search e q s
      (found.map fun _ => (), { h with entities }, s)
  | resolveArea text semantic =>
      let (found, s) := h.areas.resolve e text semantic s
      (found.map fun _ => (), h, s)
  | clearEntities => (.ok (), { h with entities := h.entities.clear }, s)
  | clearAreas => (.ok (), { h with areas := h.areas.clear }, s)
  | clearQueries => (.ok (), { h with entities := h.entities.clearQueries }, s)
  | cleanupQueries =>
      (.ok (), { h with entities := { h.entities with queries := (h.entities.queries.cleanup s.now).2 } }, s)

theorem measured_empty (settings : Settings) : (empty settings).Measured e := ⟨nofun, nofun⟩

theorem Measured.fork (M : h.Measured e) : h.fork.Measured e := ⟨M.entities, M.areas⟩

theorem Measured.addArea (M : h.Measured e) (hd : e.Declared) (hs : s.Keeps e.fitting) (r : AreaRecord) :
    (h.addArea e r s).1.Measured e ∧ (h.addArea e r s).2.Keeps e.fitting :=
  (M.areas.add hd hs r).imp_left fun M' => ⟨M.entities, M'⟩

theorem Measured.addEntity (M : h.Measured e) (hd : e.Declared) (hs : s.Keeps e.fitting) (r : EntityRecord) :
    (h.addEntity e r s).1.Measured e ∧ (h.addEntity e r s).2.Keeps e.fitting :=
  (M.entities.add hd hs r).imp_left fun M' => ⟨M', M.areas⟩

theorem Measured.removeEntity (M : h.Measured e) (id : String) :
    { h with entities := (h.entities.remove id).2 }.Measured e := ⟨M.entities.remove id, M.areas⟩

theorem Measured.addAreas (hd : e.Declared) (rs : List AreaRecord) {h : Household} {s : Shared}
    (M : h.Measured e) (hs : s.Keeps e.fitting) :
    (Household.addAreas e rs h s).1.Measured e ∧ (Household.addAreas e rs h s).2.Keeps e.fitting := by
  induction rs generalizing h s with
  | nil => exact ⟨M, hs⟩
  | cons r rs ih =>
    obtain ⟨M', ht⟩ := M.addArea hd hs r
    rw [addAreas_cons]
    exact ih M' ht

theorem Measured.addEntities (hd : e.Declared) (rs : List EntityRecord) {h : Household} {s : Shared}
    (M : h.Measured e) (hs : s.Keeps e.fitting) :
    (Household.addEntities e rs h s).1.Measured e ∧
      (Household.addEntities e rs h s).2.Keeps e.fitting := by
  induction rs generalizing h s with
  | nil => exact ⟨M, hs⟩
  | cons r rs ih =>
    obtain ⟨M', ht⟩ := M.addEntity hd hs r
    rw [addEntities_cons]
    exact ih M' ht

theorem measured_build (hd : e.Declared) (hs : s.Keeps e.fitting) (settings : Settings)
    (areas : List AreaRecord) (entities : List EntityRecord) :
    (build e settings areas entities s).1.Measured e ∧
      (build e settings areas entities s).2.Keeps e.fitting := by
  obtain ⟨M, ht⟩ := (measured_empty settings).addAreas hd areas hs
  exact M.addEntities hd entities ht

/-- Using a household does not fail and leaves all embeddings of the declared dimension. -/
theorem Measured.apply (M : h.Measured e) (hd : e.Declared) (hs : s.Keeps e.fitting) (u : Use) :
    ∃ h' t, u.apply e h s = (.ok (), h', t) ∧ h'.Measured e ∧ t.Keeps e.fitting := by
  cases u with
  | addArea r =>
    obtain ⟨M', ht⟩ := M.addArea hd hs r
    exact ⟨_, _, rfl, M', ht⟩
  | addEntity r =>
    obtain ⟨M', ht⟩ := M.addEntity hd hs r
    exact ⟨_, _, rfl, M', ht⟩
  | removeEntity id => exact ⟨_, s, rfl, M.removeEntity id, hs⟩
  | search q =>
    obtain ⟨found, z, t, hsearch, M', ht⟩ := M.entities.search hd hs q
    rw [Use.apply, hsearch]
    exact ⟨_, t, rfl, ⟨M', M.areas⟩, ht⟩
  | resolveArea text semantic =>
    obtain ⟨found, t, hresolve, ht⟩ := M.areas.resolve hd hs text semantic
    rw [Use.apply, hresolve]
    exact ⟨h, t, rfl, M, ht⟩
  | clearEntities => exact ⟨_, s, rfl, ⟨nofun, M.areas⟩, hs⟩
  | clearAreas => exact ⟨_, s, rfl, ⟨M.entities, nofun⟩, hs⟩
  | clearQueries => exact ⟨_, s, rfl, ⟨M.entities, M.areas⟩, hs⟩
  | cleanupQueries => exact ⟨_, s, rfl, ⟨M.entities, M.areas⟩, hs⟩

open Resolver

theorem Measured.areaOfQuery (M : h.Measured e) (hd : e.Declared) (hs : s.Keeps e.fitting)
    (query : String) :
    ∃ found t, areaOfQuery e h query s = (.ok found, t) ∧ t.Keeps e.fitting := by
  unfold Resolver.areaOfQuery
  cases h.areas.mentioned? query with
  | none => exact ⟨none, s, rfl, hs⟩
  | some name => exact M.areas.resolve hd hs name true

/-- A household answers every query. -/
theorem Measured.resolveIn (M : h.Measured e) (hd : e.Declared) (hs : s.Keeps e.fitting) (query : String)
    (domain : Option String) (limit : Nat) :
    ∃ answer x t, resolveIn e h query domain limit s = (.ok answer, x, t) ∧
      { h with entities := x }.Measured e ∧ t.Keeps e.fitting := by
  obtain ⟨found, t, harea, ht⟩ := M.areaOfQuery hd hs query
  unfold Resolver.resolveIn
  rw [harea]
  cases found with
  | none =>
    obtain ⟨hits, x, u, hsearch, M', hu⟩ := M.entities.search hd ht ⟨query, domain, none, limit⟩
    dsimp only
    rw [hsearch]
    exact ⟨_, x, u, rfl, ⟨M', M.areas⟩, hu⟩
  | some areaId =>
    obtain ⟨hits, x, u, hsearch, M', hu⟩ :=
      M.entities.search hd ht ⟨query, domain, none, h.entities.entries.size⟩
    dsimp only
    rw [hsearch]
    exact ⟨_, x, u, rfl, ⟨M', M.areas⟩, hu⟩

end Household

end DeviceNaming
