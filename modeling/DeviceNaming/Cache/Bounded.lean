import DeviceNaming.Number.Width

/-!
# Bounded caches with a time limit

A cache keeps its entries from the most to the least recently used. A hit or a write moves an entry to the
front; a write beyond the bound drops entries from the end. An entry older than the time limit counts as
missing and is dropped when it is read, or by `cleanup`. Times are in milliseconds.

Counters tell hits, misses, dropped and expired entries since the start or the last `clear`.
-/

namespace DeviceNaming

structure CacheEntry (κ α : Type) where
  key : κ
  value : α
  storedAt : Nat
deriving Repr

structure CacheCounters where
  hits : Nat := 0
  misses : Nat := 0
  evictions : Nat := 0
  expirations : Nat := 0
deriving DecidableEq, Repr

/-- A cache of at least one entry, with an optional time limit. -/
structure BoundedCache (κ α : Type) where
  maxSize : Nat
  ttl : Option Nat
  /-- the entries, most recently used first -/
  entries : List (CacheEntry κ α)
  counters : CacheCounters
  maxSize_pos : 0 < maxSize

namespace BoundedCache

variable {κ α : Type}

/-- An empty cache; a bound of zero means one. -/
def empty (maxSize : Nat) (ttl : Option Nat) : BoundedCache κ α :=
  ⟨max maxSize 1, ttl, [], {}, by omega⟩

/-- Is an entry stored at a time too old? -/
def expired (c : BoundedCache κ α) (storedAt now : Nat) : Bool :=
  match c.ttl with
  | some ttl => decide (ttl < now - storedAt)
  | none => false

/-- The keys, most recently used first. -/
def keys (c : BoundedCache κ α) : List κ := c.entries.map (·.key)

def size (c : BoundedCache κ α) : Nat := c.entries.length

/-- Drops all entries and starts counting anew. -/
def clear (c : BoundedCache κ α) : BoundedCache κ α := { c with entries := [], counters := {} }

/-- Drops the expired entries; gives their number. -/
def cleanup (c : BoundedCache κ α) (now : Nat) : Nat × BoundedCache κ α :=
  let kept := c.entries.filter fun e => !c.expired e.storedAt now
  let dropped := c.entries.length - kept.length
  (dropped, { c with
    entries := kept
    counters := { c.counters with expirations := c.counters.expirations + dropped } })

variable [DecidableEq κ]

def find? (c : BoundedCache κ α) (k : κ) : Option (CacheEntry κ α) :=
  c.entries.find? fun e => e.key = k

/-- The entries of all other keys. -/
def without (c : BoundedCache κ α) (k : κ) : List (CacheEntry κ α) :=
  c.entries.filter fun e => e.key ≠ k

def get (c : BoundedCache κ α) (now : Nat) (k : κ) : Option α × BoundedCache κ α :=
  match c.find? k with
  | none => (none, { c with counters := { c.counters with misses := c.counters.misses + 1 } })
  | some e =>
      if c.expired e.storedAt now then
        (none, { c with
          entries := c.without k
          counters := { c.counters with
            misses := c.counters.misses + 1
            expirations := c.counters.expirations + 1 } })
      else
        (some e.value, { c with
          entries := e :: c.without k
          counters := { c.counters with hits := c.counters.hits + 1 } })

def put (c : BoundedCache κ α) (now : Nat) (k : κ) (v : α) : BoundedCache κ α :=
  let entries := ⟨k, v, now⟩ :: c.without k
  { c with
    entries := entries.take c.maxSize
    counters := { c.counters with
      evictions := c.counters.evictions + (entries.length - c.maxSize) } }

/-- Takes a key out; gives its value, however old. -/
def remove (c : BoundedCache κ α) (k : κ) : Option α × BoundedCache κ α :=
  ((c.find? k).map (·.value), { c with entries := c.without k })

/-- Is the key held, however old its entry? -/
def contains (c : BoundedCache κ α) (k : κ) : Bool := (c.find? k).isSome

theorem map_key_without (c : BoundedCache κ α) (k : κ) :
    (c.without k).map (·.key) = c.keys.filter fun j => j ≠ k := by
  simp [without, keys, List.filter_map, Function.comp_def]

theorem key_of_find? {c : BoundedCache κ α} {k : κ} {e : CacheEntry κ α} (h : c.find? k = some e) :
    e.key = k := by
  simpa using List.find?_some h

end BoundedCache

structure CacheStats where
  size : Nat
  maxSize : Nat
  /-- the time limit in whole seconds -/
  ttlSecs : Option Nat
  counters : CacheCounters
deriving DecidableEq, Repr

/-- The share of hits among the lookups; zero before the first lookup. The lookups are counted in 64 bits. -/
def CacheCounters.hitRate (c : CacheCounters) : Float :=
  let total := (c.hits + c.misses) % Width.unsignedBound
  if total = 0 then 0.0 else Float.ofNat c.hits / Float.ofNat total

def BoundedCache.stats {κ α : Type} (c : BoundedCache κ α) : CacheStats :=
  ⟨c.size, c.maxSize, c.ttl.map (· / 1000), c.counters⟩

end DeviceNaming
