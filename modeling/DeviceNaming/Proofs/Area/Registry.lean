import DeviceNaming.Area.Hierarchy
import DeviceNaming.Area.Resolution
import DeviceNaming.Proofs.Embedding.Steady
import DeviceNaming.Proofs.Order.Roster

/-!
# The area registry under registrations

Every registration keeps the order to the areas that are registered (`AreaRegistry.Listed`), the areas below an area to
those that name it as their parent (`AreaRegistry.Parented`), and with a steady provider all embeddings to one
dimension: `AreaRegistry.Sound`. In a sound registry the area that a text means is a function of the registry and the
text, `Embedder.areaMeant` (`AreaRegistry.Sound.resolve_spec`).
-/

namespace DeviceNaming

attribute [local irreducible] Text.normalize

variable {e : Embedder} {s : Shared}

namespace AreaRegistry

variable {g : AreaRegistry} {a : Area}

/-- The order lists the registered areas, each of them once, and each stands under its own id. -/
structure Listed (g : AreaRegistry) : Prop where
  order : g.order = g.areas.keys
  nodup : g.areas.keys.Nodup
  own : ∀ {id a}, g.areas.find? id = some a → a.areaId = id

/-- The areas listed below each area are those that name it as their parent. -/
def Parented (g : AreaRegistry) : Prop :=
  ∀ p id, id ∈ g.children.ids p ↔ ∃ a, g.areas.find? id = some a ∧ a.parentId = some p

/-- All embeddings are of the declared dimension. -/
def Measured (e : Embedder) (g : AreaRegistry) : Prop :=
  ∀ a ∈ g.areas.values, ∀ v, a.embedding = some v → e.Fits v

/-- What every registration with a steady provider keeps. -/
structure Sound (e : Embedder) (g : AreaRegistry) : Prop extends g.Listed where
  parented : g.Parented
  measured : g.Measured e

/-- What is in the order of the areas is registered. -/
theorem mem_values_of_mem_ordered (ha : a ∈ g.ordered) : a ∈ g.areas.values := by
  obtain ⟨id, -, hfind⟩ := List.mem_filterMap.1 ha
  exact Roster.mem_values_of_find? hfind

/-! ## Registrations -/

theorem mem_children_enter {p id : String} :
    id ∈ (g.enter a).children.ids p ↔
      id ∈ g.children.ids p ∨ (a.parentId = some p ∧ id = a.areaId) := by
  unfold enter
  dsimp only
  split
  · rename_i q hq
    rw [Postings.mem_ids_link, hq, Option.some.injEq, @eq_comm _ q]
  · rename_i hnone
    simp [hnone]

theorem mem_children_unregister {p id : String} :
    id ∈ (g.unregister a).children.ids p ↔
      id ∈ g.children.ids p ∧ ¬(a.parentId = some p ∧ id = a.areaId) := by
  unfold unregister
  dsimp only
  split
  · rename_i q hq
    rw [Postings.mem_ids_unlink, hq, Option.some.injEq, @eq_comm _ q]
  · rename_i hnone
    simp [hnone]

/-- The registry without what was registered for an id. -/
def forget (g : AreaRegistry) (id : String) : AreaRegistry :=
  match g.areas.find? id with
  | some old => g.unregister old
  | none => g

theorem register_eq (g : AreaRegistry) (a : Area) :
    g.register a = { (g.forget a.areaId).enter a with
      order := if g.areas.contains a.areaId then g.order else g.order ++ [a.areaId] } := by
  unfold register forget
  rw [Roster.contains]
  cases g.areas.find? a.areaId <;> rfl

theorem areas_forget (g : AreaRegistry) (id : String) : (g.forget id).areas = g.areas := by
  unfold forget
  split <;> rfl

theorem areas_register (g : AreaRegistry) (a : Area) : (g.register a).areas = g.areas.put a.areaId a := by
  rw [register_eq]
  exact congrArg (·.put a.areaId a) (areas_forget ..)

theorem threshold_register (g : AreaRegistry) (a : Area) : (g.register a).threshold = g.threshold := by
  unfold register
  split <;> rfl

theorem find?_register (g : AreaRegistry) (a : Area) (id : String) :
    (g.register a).areas.find? id = if id = a.areaId then some a else g.areas.find? id := by
  rw [areas_register, Roster.find?_put]

namespace Listed

theorem mem_order (L : g.Listed) {id : String} : id ∈ g.order ↔ ∃ a, g.areas.find? id = some a := by
  rw [L.order, ← Roster.isSome_find?, Option.isSome_iff_exists]

theorem nodup_order (L : g.Listed) : g.order.Nodup := L.order ▸ L.nodup

theorem find?_areaId (L : g.Listed) (ha : a ∈ g.areas.values) : g.areas.find? a.areaId = some a :=
  Roster.find?_of_mem_values L.nodup L.own ha

/-- An area that is registered keeps its place, a new one goes to the end. -/
theorem order_register (L : g.Listed) (a : Area) :
    (g.register a).order = if a.areaId ∈ g.order then g.order else g.order ++ [a.areaId] := by
  rw [register_eq, L.order]
  exact if_congr (Roster.isSome_find? ..) rfl rfl

theorem register (L : g.Listed) (a : Area) : (g.register a).Listed := by
  constructor
  · rw [L.order_register, areas_register, Roster.keys_put, L.order]
  · rw [areas_register]
    exact Roster.nodup_keys_put L.nodup _ _
  · intro id b hb
    rw [areas_register] at hb
    exact Roster.own_put L.own a hb

end Listed

theorem listed_empty (threshold : Binary32) : (empty threshold).Listed := ⟨rfl, List.nodup_nil, nofun⟩

theorem Measured.register (M : g.Measured e) (ha : ∀ v, a.embedding = some v → e.Fits v) :
    (g.register a).Measured e := by
  intro b hb
  rw [areas_register] at hb
  rcases Roster.mem_values_put hb with rfl | hb
  · exact ha
  · exact M b hb

theorem Parented.mem_forget (H : g.Parented) (L : g.Listed) (i : String) {p id : String} :
    id ∈ (g.forget i).children.ids p ↔
      id ≠ i ∧ ∃ a, g.areas.find? id = some a ∧ a.parentId = some p := by
  unfold forget
  split
  · rename_i old hold
    rw [mem_children_unregister, H, L.own hold]
    by_cases hid : id = i
    · subst hid
      simp [hold]
    · simp [hid]
  · rename_i hnone
    rw [H]
    by_cases hid : id = i
    · subst hid
      simp [hnone]
    · simp [hid]

theorem parented_empty (threshold : Binary32) : (empty threshold).Parented := by
  simp [Parented, empty, Postings.ids]

theorem Parented.register (H : g.Parented) (L : g.Listed) (a : Area) : (g.register a).Parented := by
  intro p id
  rw [find?_register, register_eq]
  change id ∈ ((g.forget a.areaId).enter a).children.ids p ↔ _
  rw [mem_children_enter, H.mem_forget L]
  by_cases hid : id = a.areaId <;> simp [hid]

theorem sound_empty (threshold : Binary32) : (empty threshold).Sound e :=
  ⟨listed_empty threshold, parented_empty threshold, nofun⟩

theorem Sound.register (H : g.Sound e) (ha : ∀ v, a.embedding = some v → e.Fits v) : (g.register a).Sound e :=
  ⟨H.toListed.register a, H.parented.register H.toListed a, H.measured.register ha⟩

end AreaRegistry

/-- The registry after the area of a record was added with a steady provider. -/
def Embedder.withArea (e : Embedder) (r : AreaRecord) (g : AreaRegistry) : AreaRegistry :=
  if Text.trimmed r.areaId = "" then g else g.register (.ofRecord r (e.answer r.name).embedding?)

namespace AreaRegistry

variable {g : AreaRegistry}

theorem Sound.withArea (H : g.Sound e) (he : e.Steady) (r : AreaRecord) : (e.withArea r g).Sound e := by
  unfold Embedder.withArea
  split
  · exact H
  · exact H.register fun v hv => he.fits_of_answer (Lookup.embedding?_eq_some_iff.1 hv)

theorem add_spec (he : e.Steady) (hs : s.Coherent e) (r : AreaRecord) (g : AreaRegistry) :
    ∃ t, g.add e r s = (e.withArea r g, t) ∧ t.Coherent e ∧ s.LeadsTo e t := by
  unfold add Embedder.withArea
  split
  · exact ⟨s, rfl, hs, .refl s⟩
  · obtain ⟨hfound, ht⟩ := hs.embed he r.name
    refine ⟨_, ?_, ht, .embed e r.name s⟩
    rw [← hfound]

end AreaRegistry

/-! ## The area that a text means -/

open AreaRegistry

/-- The area most similar to an embedding, if it is similar enough. -/
def AreaRegistry.similarArea (g : AreaRegistry) : Lookup → Option String
  | .unavailable _ => none
  | .ready v =>
      match mostSimilar v none g.ordered with
      | .ok (some (a, score)) => if Binary32.lt g.threshold score then some a.areaId else none
      | _ => none

/-- The area that a text means. -/
def Embedder.areaMeant (e : Embedder) (g : AreaRegistry) (text : String) : Option String :=
  match Text.normalize? text with
  | none => none
  | some name =>
      match g.names.find? name with
      | some areaId => some areaId
      | none => (g.similarArea (e.answer name)).or (g.resolveByOverlap name)

namespace AreaRegistry

variable {g : AreaRegistry}

/-- A rival takes the lead if nobody has it or who has it is below. -/
def lead (best : Option (Area × Binary32)) (rival : Area × Binary32) : Option (Area × Binary32) :=
  match best with
  | none => some rival
  | some top => if Binary32.lt top.2 rival.2 then some rival else some top

/-- Areas with embeddings of one dimension are compared in order. -/
theorem mostSimilar_eq {query : Embedding} {areas : List Area}
    (h : ∀ a ∈ areas, ∀ v, a.embedding = some v → query.length = v.length) (best : Option (Area × Binary32)) :
    mostSimilar query best areas =
      .ok ((areas.filterMap fun a => a.embedding.map fun v => (a, query.cosine v)).foldl lead best) := by
  induction areas generalizing best with
  | nil => rfl
  | cons a areas ih =>
    have hrest := ih fun b hb => h b (List.mem_cons_of_mem _ hb)
    cases hv : a.embedding with
    | none =>
      rw [mostSimilar, hv, List.filterMap_cons_none (by rw [hv]; rfl)]
      exact hrest best
    | some v =>
      have hlength := h a List.mem_cons_self v hv
      rw [mostSimilar, hv, List.filterMap_cons_some (b := (a, query.cosine v)) (by rw [hv]; rfl), List.foldl_cons]
      simp only [Embedding.similarity?, if_pos hlength]
      refine (hrest _).trans ?_
      cases best with
      | none => rfl
      | some top => rfl

theorem Measured.resolveBySimilarity_eq (M : g.Measured e) {text : String}
    (hfits : ∀ v, (e.embed text s).1 = .ready v → e.Fits v) :
    g.resolveBySimilarity e text s = (.ok (g.similarArea (e.embed text s).1), (e.embed text s).2) := by
  unfold resolveBySimilarity
  rcases hembed : e.embed text s with ⟨v | reason, t⟩
  · have hv : e.Fits v := hfits v (congrArg Prod.fst hembed)
    have hbest := mostSimilar_eq (fun a ha w hw => hv.length_eq (M a (mem_values_of_mem_ordered ha) w hw)) none
    refine Prod.ext ?_ rfl
    simp only [similarArea, hbest]
    cases List.foldl lead none _ <;> rfl
  · rfl

/-- Finding the area of a text never fails, and neither the embedding cache nor the time is seen in it. -/
theorem Sound.resolve_spec (H : g.Sound e) (he : e.Steady) (hs : s.Coherent e) (text : String) :
    ∃ t, g.resolve e text true s = (.ok (e.areaMeant g text), t) ∧ t.Coherent e ∧ s.LeadsTo e t := by
  unfold resolve Embedder.areaMeant
  cases Text.normalize? text with
  | none => exact ⟨s, rfl, hs, .refl s⟩
  | some name =>
    dsimp only
    cases g.names.find? name with
    | some areaId => exact ⟨s, rfl, hs, .refl s⟩
    | none =>
      obtain ⟨hanswer, ht⟩ := hs.embed he name
      have hfits : ∀ v, (e.embed name s).1 = .ready v → e.Fits v := fun v hv =>
        he.fits_of_answer (hanswer.symm.trans hv)
      refine ⟨_, ?_, ht, .embed e name s⟩
      rw [if_pos rfl, H.measured.resolveBySimilarity_eq hfits, hanswer]
      cases g.similarArea (e.answer name) <;> rfl

end AreaRegistry

end DeviceNaming
