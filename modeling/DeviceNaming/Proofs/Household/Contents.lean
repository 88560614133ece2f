import DeviceNaming.Household.Resolver
import DeviceNaming.Proofs.Area.Registry
import DeviceNaming.Proofs.Entity.Update

/-!
# What a household knows

The contents of a household are its devices and its areas, without counters, reverse indexes and rankings.
With a steady provider every change of a sound household is a change of its contents (`Household.Yields`), and
the answer to a query is a function of the contents: `Household.Sound.resolveIn_spec`.
-/

namespace DeviceNaming

attribute [local irreducible] Text.normalize Text.trimmed

structure Contents where
  entities : Roster EntityEntry
  areas : AreaRegistry

def Household.contents (h : Household) : Contents := ⟨h.entities.entries, h.areas⟩

namespace Contents

variable (e : Embedder)

def empty (threshold : Binary32) : Contents := ⟨.empty, .empty threshold⟩

def withArea (c : Contents) (r : AreaRecord) : Contents := { c with areas := e.withArea r c.areas }

def withEntity (c : Contents) (r : EntityRecord) : Contents :=
  { c with entities := c.entities.put r.entityId (e.entryOf r) }

def without (c : Contents) (entityId : String) : Contents :=
  { c with entities := c.entities.erase entityId }

/-- The contents of a household that was built from records. -/
def ofRecords (threshold : Binary32) (areas : List AreaRecord) (entities : List EntityRecord) : Contents :=
  entities.foldl (withEntity e) (areas.foldl (withArea e) (empty threshold))

def areaOf (c : Contents) (entityId : String) : Option String :=
  (c.entities.find? entityId).bind (·.areaId)

/-- The matches whose device lies in an area or below it. -/
def within (c : Contents) (areaId : String) (found : List EntityMatch) : List EntityMatch :=
  found.filter fun m => m.entityId ∈ c.areas.filterIds (found.map (·.entityId)) areaId true (some c.areaOf)

def areaOfQuery (c : Contents) (query : String) : Option String :=
  (c.areas.mentioned? query).bind (e.areaMeant c.areas)

def resolution (c : Contents) (query : String) (domain : Option String) (limit : Nat) : Resolution :=
  match c.areaOfQuery e query with
  | none => ⟨none, e.ranking c.entities.values ⟨query, domain, none, limit⟩⟩
  | some areaId =>
      ⟨some areaId, (c.within areaId
        (e.ranking c.entities.values ⟨query, domain, none, c.entities.size⟩)).take limit⟩

end Contents

namespace Household

variable {e : Embedder} {h : Household} {s : Shared}

/-- The devices and the areas are sound, and the rankings in the query cache are current. -/
structure Sound (e : Embedder) (h : Household) : Prop where
  built : h.entities.Built e
  current : h.entities.Current e
  areas : h.areas.Sound e

/-- A change leads to a sound household of the given contents. -/
structure Yields (e : Embedder) (c : Contents) (s : Shared) (p : Household × Shared) : Prop where
  sound : p.1.Sound e
  contents : p.1.contents = c
  coherent : p.2.Coherent e
  leads : s.LeadsTo e p.2

theorem Yields.trans {c d : Contents} {p q : Household × Shared} (H : Yields e c s p)
    (H' : Yields e d p.2 q) : Yields e d s q :=
  ⟨H'.sound, H'.contents, H'.coherent, H.leads.trans H'.leads⟩

/-! ## Changes -/

theorem sound_empty (settings : Settings) : (empty settings).Sound e :=
  ⟨.of_empty rfl rfl rfl rfl, EntityIndex.current_of_entries_eq_nil rfl, AreaRegistry.sound_empty _⟩

theorem Sound.fork (H : h.Sound e) : h.fork.Sound e :=
  ⟨H.built.of_alike ⟨rfl, rfl, rfl, rfl⟩, EntityIndex.current_of_entries_eq_nil rfl, H.areas⟩

theorem Sound.addArea (H : h.Sound e) (he : e.Steady) (hs : s.Coherent e) (r : AreaRecord) :
    Yields e (h.contents.withArea e r) s (h.addArea e r s) := by
  obtain ⟨t, hadd, ht, hleads⟩ := AreaRegistry.add_spec he hs r h.areas
  have hadd' : h.addArea e r s = ({ h with areas := e.withArea r h.areas }, t) := by
    rw [Household.addArea, hadd]
  rw [hadd']
  exact ⟨⟨H.built, H.current, H.areas.withArea he r⟩, rfl, ht, hleads⟩

theorem Sound.addEntity (H : h.Sound e) (he : e.Steady) (hs : s.Coherent e) (r : EntityRecord) :
    Yields e (h.contents.withEntity e r) s (h.addEntity e r s) := by
  obtain ⟨t, hadd, ht, hleads⟩ := EntityIndex.add_spec he hs r h.entities
  rw [Household.addEntity, hadd]
  refine ⟨⟨H.built.store he r, EntityIndex.current_of_entries_eq_nil rfl, H.areas⟩, ?_, ht, hleads⟩
  rw [contents, EntityIndex.store_entries]
  rfl

theorem Sound.removeEntity (H : h.Sound e) (id : String) :
    { h with entities := (h.entities.remove id).2 }.Sound e ∧
      { h with entities := (h.entities.remove id).2 }.contents = h.contents.without id := by
  refine ⟨⟨H.built.remove id, H.current.remove id, H.areas⟩, ?_⟩
  rw [contents, EntityIndex.remove_entries]
  rfl

theorem addAreas_cons (e : Embedder) (r : AreaRecord) (rs : List AreaRecord) (h : Household) (s : Shared) :
    addAreas e (r :: rs) h s = addAreas e rs (h.addArea e r s).1 (h.addArea e r s).2 := by
  rcases hadd : h.addArea e r s with ⟨h', t⟩
  rw [addAreas, hadd]

theorem addEntities_cons (e : Embedder) (r : EntityRecord) (rs : List EntityRecord) (h : Household)
    (s : Shared) :
    addEntities e (r :: rs) h s = addEntities e rs (h.addEntity e r s).1 (h.addEntity e r s).2 := by
  rcases hadd : h.addEntity e r s with ⟨h', t⟩
  rw [addEntities, hadd]

theorem Sound.addAreas (H : h.Sound e) (he : e.Steady) (hs : s.Coherent e) (rs : List AreaRecord) :
    Yields e (rs.foldl (·.withArea e) h.contents) s (addAreas e rs h s) := by
  induction rs generalizing h s with
  | nil => exact ⟨H, rfl, hs, .refl s⟩
  | cons r rs ih =>
    have hfirst := H.addArea he hs r
    rw [addAreas_cons, List.foldl_cons, ← hfirst.contents]
    exact hfirst.trans (ih hfirst.sound hfirst.coherent)

theorem Sound.addEntities (H : h.Sound e) (he : e.Steady) (hs : s.Coherent e) (rs : List EntityRecord) :
    Yields e (rs.foldl (·.withEntity e) h.contents) s (addEntities e rs h s) := by
  induction rs generalizing h s with
  | nil => exact ⟨H, rfl, hs, .refl s⟩
  | cons r rs ih =>
    have hfirst := H.addEntity he hs r
    rw [addEntities_cons, List.foldl_cons, ← hfirst.contents]
    exact hfirst.trans (ih hfirst.sound hfirst.coherent)

/-- A household that was built from records knows these records. -/
theorem build_spec (he : e.Steady) (hs : s.Coherent e) (settings : Settings) (areas : List AreaRecord)
    (entities : List EntityRecord) :
    Yields e (.ofRecords e settings.semanticThreshold areas entities) s
      (build e settings areas entities s) := by
  have hareas := (sound_empty settings).addAreas he hs areas
  have hentities := hareas.sound.addEntities he hareas.coherent entities
  rw [hareas.contents] at hentities
  exact hareas.trans hentities

/-! ## Answers -/

open Resolver

theorem Sound.areaOfQuery_spec (H : h.Sound e) (he : e.Steady) (hs : s.Coherent e) (query : String) :
    ∃ t, areaOfQuery e h query s = (.ok (h.contents.areaOfQuery e query), t) ∧ t.Coherent e ∧
      s.LeadsTo e t := by
  have hcontents : h.contents.areaOfQuery e query =
      (h.areas.mentioned? query).bind (e.areaMeant h.areas) := rfl
  rw [hcontents, areaOfQuery]
  cases h.areas.mentioned? query with
  | none => exact ⟨s, rfl, hs, .refl s⟩
  | some name => exact H.areas.resolve_spec he hs name

/-- A search finds the ranking of the devices and leaves a sound household of the same contents. -/
theorem Sound.search_spec (H : h.Sound e) (he : e.Steady) (hs : s.Coherent e) (q : Query) :
    ∃ x t, h.entities.search e q s = (.ok (e.ranking h.contents.entities.values q), x, t) ∧
      { h with entities := x }.Sound e ∧ { h with entities := x }.contents = h.contents ∧
      s.LeadsTo e t := by
  obtain ⟨found, x, t, hsearch, A, -, hleads, hcurrent⟩ :=
    EntityIndex.search_spec H.built.mirrors H.built.measured he hs q
  obtain ⟨hfound, C⟩ := hcurrent H.current
  rw [H.built.mirrors.ordered_eq] at hfound
  refine ⟨x, t, hfound ▸ hsearch, ⟨H.built.of_alike A, C, H.areas⟩, ?_, hleads⟩
  rw [contents, A.entries]
  rfl

/-- A sound household answers every query, and its contents alone decide the answer. -/
theorem Sound.resolveIn_spec (H : h.Sound e) (he : e.Steady) (hs : s.Coherent e) (query : String)
    (domain : Option String) (limit : Nat) :
    ∃ x t, resolveIn e h query domain limit s = (.ok (h.contents.resolution e query domain limit), x, t) ∧
      { h with entities := x }.Sound e ∧ { h with entities := x }.contents = h.contents ∧
      s.LeadsTo e t := by
  obtain ⟨t, harea, ht, hleads⟩ := H.areaOfQuery_spec he hs query
  rw [resolveIn, Contents.resolution, harea]
  cases hmeant : h.contents.areaOfQuery e query with
  | none =>
    obtain ⟨x, u, hsearch, hx, hcontents, hleads'⟩ := H.search_spec he ht ⟨query, domain, none, limit⟩
    refine ⟨x, u, ?_, hx, hcontents, hleads.trans hleads'⟩
    simp only [hsearch]
    rfl
  | some areaId =>
    obtain ⟨x, u, hsearch, hx, hcontents, hleads'⟩ :=
      H.search_spec he ht ⟨query, domain, none, h.entities.entries.size⟩
    refine ⟨x, u, ?_, hx, hcontents, hleads.trans hleads'⟩
    simp only [hsearch]
    rfl

end Household

end DeviceNaming
