import DeviceNaming.Order.Roster

/-!
# The index cache

Keeps one built index for each user for a limited time, so that it is not built for every query. What an index is
does not matter here. Times are in milliseconds.
-/

namespace DeviceNaming

structure CachedIndex (ι : Type) where
  index : ι
  builtAt : Nat
deriving Repr

structure IndexCacheCounters where
  hits : Nat := 0
  misses : Nat := 0
  forcedRebuilds : Nat := 0
  builds : Nat := 0
  updates : Nat := 0
  invalidations : Nat := 0
  expirations : Nat := 0
deriving DecidableEq, Repr

/-- The indexes of users. -/
structure IndexCache (ι : Type) where
  ttl : Nat
  entries : Roster (CachedIndex ι)
  counters : IndexCacheCounters

namespace IndexCache

variable {ι : Type}

def empty (ttl : Nat) : IndexCache ι := ⟨ttl, .empty, {}⟩

/-- Is an index too old? -/
def expired (c : IndexCache ι) (now : Nat) (x : CachedIndex ι) : Bool :=
  decide (c.ttl < now - x.builtAt)

/-- The index of a user at a time. Who is about to build one anew gets none (`force`). -/
def get (c : IndexCache ι) (now : Nat) (user : String) (force : Bool) : Option ι × IndexCache ι :=
  if force then
    (none, { c with counters := { c.counters with forcedRebuilds := c.counters.forcedRebuilds + 1 } })
  else
    match c.entries.find? user with
    | none => (none, { c with counters := { c.counters with misses := c.counters.misses + 1 } })
    | some x =>
        if c.expired now x then
          (none, { c with
            entries := c.entries.erase user
            counters := { c.counters with
              misses := c.counters.misses + 1
              expirations := c.counters.expirations + 1 } })
        else (some x.index, { c with counters := { c.counters with hits := c.counters.hits + 1 } })

def put (c : IndexCache ι) (now : Nat) (user : String) (index : ι) : IndexCache ι :=
  { c with
    entries := c.entries.put user ⟨index, now⟩
    counters :=
      if c.entries.contains user then { c.counters with updates := c.counters.updates + 1 }
      else { c.counters with builds := c.counters.builds + 1 } }

/-- Drops the index of a user; tells whether there was one. -/
def invalidate (c : IndexCache ι) (user : String) : Bool × IndexCache ι :=
  if c.entries.contains user then
    (true, { c with
      entries := c.entries.erase user
      counters := { c.counters with invalidations := c.counters.invalidations + 1 } })
  else (false, c)

def clear (c : IndexCache ι) : IndexCache ι :=
  { c with
    entries := .empty
    counters := { c.counters with invalidations := c.counters.invalidations + c.entries.size } }

/-- Drops the expired indexes; gives their number. -/
def cleanup (c : IndexCache ι) (now : Nat) : Nat × IndexCache ι :=
  let kept : Roster (CachedIndex ι) := ⟨c.entries.items.filter fun p => !c.expired now p.2⟩
  let dropped := c.entries.size - kept.size
  (dropped, { c with
    entries := kept
    counters := { c.counters with expirations := c.counters.expirations + dropped } })

def age (c : IndexCache ι) (now : Nat) (user : String) : Option Nat :=
  (c.entries.find? user).map fun x => now - x.builtAt

def size (c : IndexCache ι) : Nat := c.entries.size

end IndexCache

end DeviceNaming
