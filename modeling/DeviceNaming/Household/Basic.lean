import DeviceNaming.Area.Hierarchy
import DeviceNaming.Area.Resolution
import DeviceNaming.Entity.Search

/-!
# Households

A household has devices and areas. It is built from the records of both, areas first.
-/

namespace DeviceNaming

/-- The devices and the areas of a household. -/
structure Household where
  entities : EntityIndex
  areas : AreaRegistry

structure HouseholdStats where
  entities : EntityStats
  areas : AreaStats
deriving DecidableEq, Repr

namespace Household

def empty (settings : Settings) : Household :=
  ⟨.empty settings.queryCache, .empty settings.semanticThreshold⟩

/-- A copy that can be changed on its own. -/
def fork (h : Household) : Household := { h with entities := h.entities.fork }

def stats (h : Household) : HouseholdStats := ⟨h.entities.stats, h.areas.stats⟩

def addArea (e : Embedder) (r : AreaRecord) (h : Household) (s : Shared) : Household × Shared :=
  let (areas, s) := h.areas.add e r s
  ({ h with areas }, s)

def addEntity (e : Embedder) (r : EntityRecord) (h : Household) (s : Shared) : Household × Shared :=
  let (entities, s) := h.entities.add e r s
  ({ h with entities }, s)

def addAreas (e : Embedder) : List AreaRecord → Household → Shared → Household × Shared
  | [], h, s => (h, s)
  | r :: rs, h, s =>
      let (h, s) := h.addArea e r s
      addAreas e rs h s

def addEntities (e : Embedder) : List EntityRecord → Household → Shared → Household × Shared
  | [], h, s => (h, s)
  | r :: rs, h, s =>
      let (h, s) := h.addEntity e r s
      addEntities e rs h s

def build (e : Embedder) (settings : Settings) (areas : List AreaRecord) (entities : List EntityRecord)
    (s : Shared) : Household × Shared :=
  let (h, s) := addAreas e areas (empty settings) s
  addEntities e entities h s

end Household

/-- Reads the records of areas and those of devices from the bytes of two documents, areas first. -/
def readRecords? (areas entities : ByteArray) :
    Except Json.DecodeError (List AreaRecord × List EntityRecord) := do
  let areas ← Json.decode (Json.Decoder.list AreaRecord.decoder) (Json.Source.ofBytes areas)
  let entities ← Json.decode (Json.Decoder.list EntityRecord.decoder) (Json.Source.ofBytes entities)
  .ok (areas, entities)

end DeviceNaming
