import DeviceNaming.Embedding.Embedder
import DeviceNaming.Order.Roster
import DeviceNaming.Record.Area

/-!
# The area registry

The areas of a household: the order in which they were registered, what they are, an index from names to areas and
one from areas to the areas directly below them. Registering an id again replaces the area, keeps its place in the order
and takes its old names and its old place in the tree away; a name that several areas claim belongs to
the one that was registered last.
-/

namespace DeviceNaming

structure Area where
  areaId : String
  name : String
  aliases : List String
  parentId : Option String
  parentName : Option String
  embedding : Option Embedding
deriving DecidableEq, Repr

namespace Area

/-- The names that an area goes by. -/
def labels (a : Area) : List String := a.name :: a.aliases

/-- The names in normal form, without empty ones. -/
def normalLabels (a : Area) : List String := a.labels.filterMap Text.normalize?

/-- The area that a record describes, with the embedding of its name. -/
def ofRecord (r : AreaRecord) (embedding : Option Embedding) : Area where
  areaId := r.areaId
  name := Text.trimmed r.name
  aliases := (r.aliases.map Text.trimmed).filter fun a => a ≠ ""
  parentId := r.parentId
  parentName := r.parentName
  embedding := embedding

end Area

/-- The areas of a household. -/
structure AreaRegistry where
  /-- the similarity that an area has to exceed to be meant by a text -/
  threshold : Binary32
  /-- the ids of the areas, in the order in which they were registered -/
  order : List String
  /-- the area of each id -/
  areas : Roster Area
  /-- the area of each name in normal form -/
  names : Roster String
  /-- the areas directly below each area -/
  children : Postings

structure AreaStats where
  areaCount : Nat
  aliasCount : Nat
  indexedNames : Nat
  embeddedAreas : Nat
  rootAreas : Nat
deriving DecidableEq, Repr

namespace AreaRegistry

def empty (threshold : Binary32) : AreaRegistry := ⟨threshold, [], .empty, .empty, .empty⟩

/-- Takes a name away from an area that holds it. -/
def releaseName (names : Roster String) (label areaId : String) : Roster String :=
  if names.find? label = some areaId then names.erase label else names

/-- Takes the names of an area and its place in the tree away. -/
def unregister (g : AreaRegistry) (a : Area) : AreaRegistry :=
  { g with
    names := a.labels.foldl (fun ns label => releaseName ns (Text.normalize label) a.areaId) g.names
    children := match a.parentId with
      | some p => g.children.unlink p a.areaId
      | none => g.children }

/-- Writes an area with its names and its place in the tree. -/
def enter (g : AreaRegistry) (a : Area) : AreaRegistry :=
  { g with
    areas := g.areas.put a.areaId a
    names := a.normalLabels.foldl (fun ns label => ns.put label a.areaId) g.names
    children := match a.parentId with
      | some p => g.children.link p a.areaId
      | none => g.children }

/-- Registers an area. An earlier one of the same id goes with its names; an id that is new goes to the end of the
order. -/
def register (g : AreaRegistry) (a : Area) : AreaRegistry :=
  match g.areas.find? a.areaId with
  | some old => (g.unregister old).enter a
  | none => { g with order := g.order ++ [a.areaId] }.enter a

/-- Registers the area of a record with the embedding of its name, if there is one. A record without an id is
passed over. -/
def add (e : Embedder) (r : AreaRecord) (g : AreaRegistry) (s : Shared) : AreaRegistry × Shared :=
  if Text.trimmed r.areaId = "" then (g, s)
  else
    let (found, s) := e.embed r.name s
    (g.register (.ofRecord r found.embedding?), s)

def clear (g : AreaRegistry) : AreaRegistry := empty g.threshold

/-- The areas in the order of their registration. -/
def ordered (g : AreaRegistry) : List Area := g.order.filterMap g.areas.find?

def stats (g : AreaRegistry) : AreaStats where
  areaCount := g.areas.size
  aliasCount := g.areas.values.foldl (fun n a => n + a.aliases.length) 0
  indexedNames := g.names.size
  embeddedAreas := g.areas.values.countP (·.embedding.isSome)
  rootAreas := g.areas.values.countP (·.parentId.isNone)

end AreaRegistry

end DeviceNaming
