import DeviceNaming.Household.Sample
import DeviceNaming.Proofs.Area.Hierarchy
import DeviceNaming.Proofs.Entity.Narrowing
import DeviceNaming.Proofs.Household.Run

/-!
# Queries about an area

When a query is about an area, the answer has the matches of the full ranking whose devices stand in the area or
in one that lies in it, in their order, up to the limit (`Resolver.resolve_narrowed`). So nothing outside the area
can push a device of the area out of the answer.
-/

namespace DeviceNaming

attribute [local irreducible] Text.normalize Text.trimmed

namespace Contents

variable {e : Embedder} {c : Contents}

/-- Does a device stand in an area or below it, by the walk over the areas? -/
def standsIn (c : Contents) (areaId entityId : String) : Bool :=
  match c.areaOf entityId with
  | none => false
  | some a => decide (a ∈ c.areas.hierarchy areaId)

theorem standsIn_iff (H : c.areas.Sound e) {areaId entityId : String} :
    c.standsIn areaId entityId = true ↔ ∃ a, c.areaOf entityId = some a ∧ c.areas.LiesIn areaId a := by
  unfold standsIn
  cases c.areaOf entityId with
  | none => simp
  | some a => simp [H.parented.mem_hierarchy_iff]

theorem within_eq (c : Contents) (areaId : String) (found : List EntityMatch) :
    c.within areaId found = found.filter fun m => c.standsIn areaId m.entityId := by
  refine List.filter_congr fun m hm => ?_
  have hid : m.entityId ∈ found.map (·.entityId) := List.mem_map.2 ⟨m, hm, rfl⟩
  rw [Bool.eq_iff_iff, decide_eq_true_eq, AreaRegistry.filterIds, List.mem_filter, and_iff_right hid,
    if_pos rfl, standsIn]
  cases c.areaOf m.entityId <;> rfl

theorem resolution_narrowed {query : String} {areaId : String} (h : c.areaOfQuery e query = some areaId)
    (domain : Option String) (limit : Nat) :
    c.resolution e query domain limit =
      ⟨some areaId, ((e.fullRanking c.entities.values query domain none).filter
        fun m => c.standsIn areaId m.entityId).take limit⟩ := by
  have hsize : c.entities.values.length ≤ c.entities.size := Nat.le_of_eq c.entities.length_values
  rw [resolution, h]
  dsimp only
  rw [Embedder.ranking_eq_fullRanking hsize, within_eq]

end Contents

namespace Household

variable {e : Embedder} {h : Household}

theorem Sound.areaOf_entityId (H : h.Sound e) {y : EntityEntry} (hy : y ∈ h.entities.entries.values) :
    h.contents.areaOf y.entityId = y.areaId :=
  congrArg (·.bind (·.areaId)) (H.built.mirrors.find?_entityId hy)

/-- In an area without areas below it stand the devices that name it. -/
theorem Sound.standsIn_eq (H : h.Sound e) {areaId : String} (hleaf : h.areas.childAreas areaId = [])
    {y : EntityEntry} (hy : y ∈ h.entities.entries.values) :
    h.contents.standsIn areaId y.entityId = decide (y.areaId = some areaId) := by
  rw [Bool.eq_iff_iff, Contents.standsIn_iff (c := h.contents) H.areas, H.areaOf_entityId hy]
  simp [show ∀ a, h.contents.areas.LiesIn areaId a ↔ a = areaId from fun a => H.areas.parented.liesIn_iff_eq hleaf]

end Household

namespace Resolver

open ResolverState

variable {r : Resolver}

/-- An answer about an area is the front of the part of the full ranking that stands in the area. -/
theorem resolve_narrowed (he : r.embedder.Steady) (cmds : List Command) (user query : String)
    (domain : Option String) (limit : Option Nat) {areaId : String} {hits : List EntityMatch}
    (hanswer : (r.resolve user query domain limit (r.run cmds)).1 = .ok ⟨some areaId, hits⟩) :
    ∃ n h, ((r.run cmds).current user false).1 = some (n, h) ∧
      ∃ (full : List EntityMatch) (keep : String → Bool),
        (∀ all s, h.entities.entries.size ≤ all → s.Reached r.embedder →
          (h.entities.search r.embedder ⟨query, domain, none, all⟩ s).1 = .ok full) ∧
        (∀ id, keep id = true ↔ ∃ a, h.entities.areaOf id = some a ∧ h.areas.LiesIn areaId a) ∧
        hits = (full.filter fun m => keep m.entityId).take (limit.getD r.defaultLimit) ∧
        (h.areas.childAreas areaId = [] → ∀ s, s.Reached r.embedder →
          (h.entities.search r.embedder ⟨query, domain, some areaId, limit.getD r.defaultLimit⟩ s).1 =
            .ok hits) := by
  have H := run_sound he cmds
  rw [(resolve_spec he H user query domain limit).1] at hanswer
  rcases H.current_cases user with ⟨-, hknown⟩ | ⟨n, h, hsome, -, hh, hknown⟩
  · rw [hknown] at hanswer
    cases hanswer
  · rw [hknown] at hanswer
    have hresolution : h.contents.resolution r.embedder query domain (limit.getD r.defaultLimit) =
        ⟨some areaId, hits⟩ := Except.ok.inj hanswer
    have harea : h.contents.areaOfQuery r.embedder query = some areaId := by
      cases hq : h.contents.areaOfQuery r.embedder query with
      | none =>
        rw [Contents.resolution, hq] at hresolution
        cases hresolution
      | some a =>
        rw [Contents.resolution_narrowed hq] at hresolution
        cases hresolution
        rfl
    -- the matches are a front of the ranking without a limit, which any search shows whatever its caches hold
    rw [Contents.resolution_narrowed harea] at hresolution
    have hhits := (Resolution.mk.inj hresolution).2
    have hsize := h.entities.entries.length_values
    have hordered := hh.built.mirrors.ordered_eq
    refine ⟨n, h, hsome, r.embedder.fullRanking h.entities.entries.values query domain none,
      h.contents.standsIn areaId, ?_, fun id => Contents.standsIn_iff hh.areas, hhits.symm, ?_⟩
    · intro all s hall hs
      rw [hh.built.search_eq hh.current he (hs.coherent he), hordered, Embedder.ranking_eq_fullRanking (hsize ▸ hall)]
    · intro hleaf s hs
      rw [hh.built.search_eq hh.current he (hs.coherent he), hordered, Embedder.ranking_eq_take, ← hhits]
      rw [← Embedder.fullRanking_filter fun y hy => hh.standsIn_eq hleaf hy]
      rfl

/-- An office upstairs with a lamp, and another lamp in the hall. -/
def upperFloor : List Command := [
  .rebuild "ann" [.new "upstairs" "Upstairs", (AreaRecord.new "office" "Office").withParent "upstairs" none]
    [Sample.device "light.hall" [(.primaryName, "Hall Lamp")] "hall" "Hall", Sample.officeLamp]]

theorem resolve_narrowed_upper_floor :
    let r := Sample.resolver (some (.keywords []))
    ∃ hits, (r.resolve "ann" "lamp upstairs" none (some 1) (r.run upperFloor)).1 =
        .ok ⟨some "upstairs", hits⟩ ∧
      ∃ n h, ((r.run upperFloor).current "ann" false).1 = some (n, h) ∧
        ∃ (full : List EntityMatch) (keep : String → Bool),
          (∀ all s, h.entities.entries.size ≤ all → s.Reached r.embedder →
            (h.entities.search r.embedder ⟨"lamp upstairs", none, none, all⟩ s).1 = .ok full) ∧
          (∀ id, keep id = true ↔ ∃ a, h.entities.areaOf id = some a ∧ h.areas.LiesIn "upstairs" a) ∧
          hits = (full.filter fun m => keep m.entityId).take 1 := by
  intro r
  have he : r.embedder.Steady := Embedder.steady_keywords [] _
  have hanswer := (resolve_spec he (run_sound he upperFloor) "ann" "lamp upstairs" none (some 1)).1
  have harea : (r.answer ((r.run upperFloor).known (r.run upperFloor).shared.now "ann")
      "lamp upstairs" none (some 1)).areaId = some "upstairs" := by decide +kernel
  rcases hresolution : r.answer ((r.run upperFloor).known (r.run upperFloor).shared.now "ann")
    "lamp upstairs" none (some 1) with ⟨areaId, hits⟩
  rw [hresolution] at hanswer harea
  cases harea
  obtain ⟨n, h, hcurrent, full, keep, hfull, hkeep, hhits, -⟩ :=
    resolve_narrowed he upperFloor "ann" "lamp upstairs" none (some 1) hanswer
  exact ⟨hits, hanswer, n, h, hcurrent, full, keep, hfull, hkeep, hhits⟩

end Resolver

end DeviceNaming
