import DeviceNaming.Cache.Queries
import DeviceNaming.Embedding.Embedder
import DeviceNaming.Record.Entity
import DeviceNaming.Text.Blank

/-!
# Entries of the entity index

What the index keeps about a device: the facts of its record and its names, each with an embedding where there
is one.
-/

namespace DeviceNaming

structure EntityVariant where
  entityId : String
  /-- the name as it was given, trimmed -/
  name : String
  tag : VariantTag
  embedding : Option Embedding
  areaId : Option String
  areaName : Option String
deriving DecidableEq, Repr

structure EntityEntry where
  entityId : String
  domain : String
  deviceId : Option String
  areaId : Option String
  areaName : Option String
  variants : List EntityVariant
deriving DecidableEq, Repr

namespace EntityEntry

def names (e : EntityEntry) : List String := e.variants.map (·.name)

def normalNames (e : EntityEntry) : List String := e.names.map Text.normalize

/-- The embeddings of the names that have one. -/
def embeddings (e : EntityEntry) : List Embedding := e.variants.filterMap (·.embedding)

/-- Does the device pass the filters? -/
def passes (e : EntityEntry) (domain areaId : Option String) : Bool :=
  (match domain with
    | none => true
    | some d => e.domain = d) &&
  (match areaId with
    | none => true
    | some a => e.areaId = some a)

/-- The entry of a record, with the outcome of the lookup of each of its names. -/
def ofRecord (r : EntityRecord) (names : List (VariantTag × String)) (found : List Lookup) :
    EntityEntry where
  entityId := r.entityId
  domain := r.domain
  deviceId := r.deviceId
  areaId := r.areaId
  areaName := r.areaName
  variants := List.zipWith
    (fun (n : VariantTag × String) (l : Lookup) =>
      ⟨r.entityId, n.2, n.1, l.embedding?, r.areaId, r.areaName⟩)
    names found

end EntityEntry

/-- The names of a record, trimmed and without blank ones. -/
def EntityRecord.givenNames (r : EntityRecord) : List (VariantTag × String) :=
  (r.names.map fun (tag, name) => (tag, Text.trimmed name)).filter fun n => n.2 ≠ ""

end DeviceNaming
