import DeviceNaming.Cache.Indexes
import DeviceNaming.Household.Basic

/-!
# The resolver of many households

A resolver answers queries for any number of users, each with a household. Households are published in
editions: an update never touches a published edition but forks it, changes the fork and publishes that. The
index cache holds the current edition of each user; who held an earlier edition keeps it as it was. What an
edition counts and the rankings that it keeps are its own, and all editions share one embedding cache.

`resolve` answers a query. When the query mentions an area, all devices are ranked and those in the area or
below it are kept.
-/

namespace DeviceNaming

/-- The key of a user who gives none. -/
def defaultUser : String := "default"

structure Resolution where
  areaId : Option String
  hits : List EntityMatch
deriving DecidableEq, Repr

namespace Resolution

/-- The answer of who knows nothing. -/
def nothing : Resolution := ⟨none, []⟩

def best (r : Resolution) : Option EntityMatch := r.hits.head?

end Resolution

/-- A resolver: its settings and where embeddings come from. -/
structure Resolver where
  settings : Settings
  embedder : Embedder

/-- What a resolver has in memory. -/
structure ResolverState where
  shared : Shared
  /-- the published editions, by number -/
  editions : List Household
  /-- the number of the current edition of each user -/
  cache : IndexCache Nat

namespace ResolverState

def edition? (st : ResolverState) (n : Nat) : Option Household := st.editions[n]?

/-- The current edition of a user, with its number. -/
def current (st : ResolverState) (user : String) (force : Bool) :
    Option (Nat × Household) × ResolverState :=
  let (found, cache) := st.cache.get st.shared.now user force
  (found.bind fun n => (st.edition? n).map fun h => (n, h), { st with cache })

/-- Publishes a household as the current edition of a user; gives its number. -/
def publish (st : ResolverState) (user : String) (h : Household) : Nat × ResolverState :=
  let n := st.editions.length
  (n, { st with
    editions := st.editions ++ [h]
    cache := st.cache.put st.shared.now user n })

/-- Lets an edition note what a search left behind. -/
def note (st : ResolverState) (n : Nat) (entities : EntityIndex) (shared : Shared) : ResolverState :=
  { st with
    shared
    editions := st.editions.modify n fun h => { h with entities } }

def advance (st : ResolverState) (ms : Nat) : ResolverState := { st with shared := st.shared.advance ms }

/-- Drops the current edition of a user from the cache; tells whether there was one. -/
def invalidate (st : ResolverState) (user : String) : Bool × ResolverState :=
  let (dropped, cache) := st.cache.invalidate user
  (dropped, { st with cache })

/-- Drops what has expired from the index cache and from the embedding cache; gives the number of both. -/
def cleanup (st : ResolverState) : Nat × ResolverState :=
  let (indexes, cache) := st.cache.cleanup st.shared.now
  let (embeddings, shared) := st.shared.cleanupCache
  (indexes + embeddings, { st with cache, shared })

end ResolverState

namespace Resolver

/-- A resolver with settings and perhaps a provider. -/
def new (settings : Settings) (provider : Option Provider) : Resolver :=
  ⟨settings, ⟨provider, settings.timeoutMs⟩⟩

def start (r : Resolver) : ResolverState :=
  ⟨.start r.settings.embeddingCache, [], .empty (r.settings.indexTtlSecs * 1000)⟩

/-- Builds the household of a user anew and publishes it. -/
def rebuild (r : Resolver) (user : String) (areas : List AreaRecord) (entities : List EntityRecord)
    (st : ResolverState) : Nat × ResolverState :=
  let (h, shared) := Household.build r.embedder r.settings areas entities st.shared
  { st with shared }.publish user h

/-- Changes a fork of the current edition of a user and publishes it. -/
def update (user : String) (change : Household → Shared → Household × Shared) (st : ResolverState) :
    Option Nat × ResolverState :=
  match st.current user false with
  | (none, st) => (none, st)
  | (some (_, h), st) =>
      let (h, shared) := change h.fork st.shared
      let (n, st) := { st with shared }.publish user h
      (some n, st)

/-- Adds a device to the household of a user, or replaces it. -/
def upsertEntity (r : Resolver) (user : String) (record : EntityRecord) (st : ResolverState) :
    Option Nat × ResolverState :=
  update user (Household.addEntity r.embedder record) st

/-- Adds an area to the household of a user, or replaces it. -/
def upsertArea (r : Resolver) (user : String) (record : AreaRecord) (st : ResolverState) :
    Option Nat × ResolverState :=
  update user (Household.addArea r.embedder record) st

/-- Takes a device out of the household of a user. An unknown device leaves the edition current. -/
def removeEntity (user entityId : String) (st : ResolverState) : Option Nat × ResolverState :=
  match st.current user false with
  | (none, st) => (none, st)
  | (some (n, h), st) =>
      if h.entities.entries.contains entityId then
        let h := h.fork
        let (n, st) := st.publish user { h with entities := (h.entities.remove entityId).2 }
        (some n, st)
      else (some n, st)

/-- How many matches are given when nothing else is asked for. -/
def defaultLimit (r : Resolver) : Nat := max r.settings.defaultLimit 1

/-- The matches whose device lies in an area or below it. -/
def withinArea (h : Household) (areaId : String) (found : List EntityMatch) : List EntityMatch :=
  let kept := h.areas.filterIds (found.map (·.entityId)) areaId true (some h.entities.areaOf)
  found.filter fun m => m.entityId ∈ kept

/-- The area that a query is about: the one that the name of the first area it mentions means. -/
def areaOfQuery (e : Embedder) (h : Household) (query : String) (s : Shared) :
    Except DimensionMismatch (Option String) × Shared :=
  match h.areas.mentioned? query with
  | some name => h.areas.resolve e name true s
  | none => (.ok none, s)

/-- Answers a query in a household, which also gets what the search leaves behind. -/
def resolveIn (e : Embedder) (h : Household) (query : String) (domain : Option String) (limit : Nat)
    (s : Shared) : Except DimensionMismatch Resolution × EntityIndex × Shared :=
  match areaOfQuery e h query s with
  | (.error err, s) => (.error err, h.entities, s)
  | (.ok none, s) =>
      let (found, entities, s) := h.entities.search e ⟨query, domain, none, limit⟩ s
      (found.map fun hits => ⟨none, hits⟩, entities, s)
  | (.ok (some areaId), s) =>
      let (found, entities, s) := h.entities.search e ⟨query, domain, none, h.entities.entries.size⟩ s
      (found.map fun hits => ⟨some areaId, (withinArea h areaId hits).take limit⟩, entities, s)

def resolve (r : Resolver) (user query : String) (domain : Option String) (limit : Option Nat)
    (st : ResolverState) : Except DimensionMismatch Resolution × ResolverState :=
  match st.current user false with
  | (none, st) => (.ok .nothing, st)
  | (some (n, h), st) =>
      let (answer, entities, shared) :=
        resolveIn r.embedder h query domain (limit.getD r.defaultLimit) st.shared
      (answer, st.note n entities shared)

end Resolver

end DeviceNaming
