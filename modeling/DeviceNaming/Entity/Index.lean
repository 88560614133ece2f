import DeviceNaming.Entity.Entry
import DeviceNaming.Order.Roster

/-!
# The entity index

The devices of a household: the order in which they were first added, their entries, and indexes from names and from
areas to devices. Adding a device again replaces its entry, keeps its place in the order and takes its old
names and its old area away. The index keeps the rankings of recent queries; they are dropped whenever a device
is added or taken out. `fork` gives a copy that can be changed on its own.
-/

namespace DeviceNaming

/-- What the searches of an index have counted. -/
structure SearchCounters where
  searches : Nat := 0
  semanticSearches : Nat := 0
  exactFallbacks : Nat := 0
  queryCacheHits : Nat := 0
deriving DecidableEq, Repr

/-- The devices of a household. -/
structure EntityIndex where
  /-- the ids of the devices, in the order in which they were first added -/
  order : List String
  /-- the entry of each device -/
  entries : Roster EntityEntry
  /-- the devices that bear each name in normal form -/
  names : Postings
  /-- the devices in each area -/
  places : Postings
  queries : QueryCache
  counters : SearchCounters

structure EntityStats where
  entityCount : Nat
  variantCount : Nat
  embeddedVariantCount : Nat
  areaCount : Nat
  domainCount : Nat
  counters : SearchCounters
  queryCache : CacheStats
deriving DecidableEq, Repr

namespace EntityIndex

/-- An index without devices, whose query cache has the given bounds. -/
def empty (c : CacheSettings) : EntityIndex := ⟨[], .empty, .empty, .empty, c.emptyCache, {}⟩

/-- A copy with the same devices and counters and an empty query cache. -/
def fork (x : EntityIndex) : EntityIndex := { x with queries := QueryCache.emptyLike x.queries }

/-- Takes the names and the area of an entry away. -/
def unlink (x : EntityIndex) (e : EntityEntry) : EntityIndex :=
  { x with
    names := e.normalNames.foldl (fun p name => Postings.unlink p name e.entityId) x.names
    places := match e.areaId with
      | some a => x.places.unlink a e.entityId
      | none => x.places }

/-- Writes the names and the area of an entry. -/
def link (x : EntityIndex) (e : EntityEntry) : EntityIndex :=
  { x with
    names := e.normalNames.foldl (fun p name => Postings.link p name e.entityId) x.names
    places := match e.areaId with
      | some a => x.places.link a e.entityId
      | none => x.places }

def clearQueries (x : EntityIndex) : EntityIndex := { x with queries := x.queries.clear }

/-- Writes an entry. An earlier one of the same device goes with its links; a device that is new goes to the end of the
order. -/
def store (x : EntityIndex) (e : EntityEntry) : EntityIndex :=
  let x := match x.entries.find? e.entityId with
    | some old => x.unlink old
    | none => { x with order := x.order ++ [e.entityId] }
  let x := x.link e
  { x with entries := x.entries.put e.entityId e }.clearQueries

/-- Adds the device of a record, with the embeddings of its names. -/
def add (e : Embedder) (r : EntityRecord) (x : EntityIndex) (s : Shared) : EntityIndex × Shared :=
  let names := r.givenNames
  let (found, s) := e.embedMany (names.map (·.2)) s
  (x.store (.ofRecord r names found), s)

/-- Takes a device out; gives its entry. -/
def remove (x : EntityIndex) (entityId : String) : Option EntityEntry × EntityIndex :=
  match x.entries.find? entityId with
  | none => (none, x)
  | some e =>
      let x := x.unlink e
      (some e, { x with
        order := x.order.filter fun id => id ≠ entityId
        entries := x.entries.erase entityId }.clearQueries)

/-- Drops all devices and starts counting searches anew. The query cache stays as it is. -/
def clear (x : EntityIndex) : EntityIndex :=
  { x with order := [], entries := .empty, names := .empty, places := .empty, counters := {} }

/-- The entries in the order of the devices. -/
def ordered (x : EntityIndex) : List EntityEntry := x.order.filterMap x.entries.find?

def inArea (x : EntityIndex) (areaId : String) : List String := x.places.ids areaId

def areaOf (x : EntityIndex) (entityId : String) : Option String :=
  (x.entries.find? entityId).bind (·.areaId)

/-- The devices that stand in an area, each with it. -/
def areaMap (x : EntityIndex) : List (String × String) :=
  x.entries.values.filterMap fun e => e.areaId.map fun a => (e.entityId, a)

def distinctCount (xs : List String) : Nat := xs.eraseDups.length

def stats (x : EntityIndex) : EntityStats where
  entityCount := x.entries.size
  variantCount := x.entries.values.foldl (fun n e => n + e.variants.length) 0
  embeddedVariantCount := x.entries.values.foldl (fun n e => n + e.embeddings.length) 0
  areaCount := x.places.size
  domainCount := distinctCount (x.entries.values.map (·.domain))
  counters := x.counters
  queryCache := x.queries.stats

end EntityIndex

end DeviceNaming
