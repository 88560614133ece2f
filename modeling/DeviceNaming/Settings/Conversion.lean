import DeviceNaming.Number.DecimalText
import DeviceNaming.Number.Reading
import DeviceNaming.Number.Width
import DeviceNaming.Settings.Basic
import DeviceNaming.Settings.Tree

/-!
# Settings out of a tree

A layer may write a value in another kind than the field has: a size as a text or a truth value, a text as a
number. The conversions here take what they can. A section is a table of its fields by name or a list of them in
their order; a missing field has its default.
-/

namespace DeviceNaming.Settings

namespace Tree

/-- The words for truth values. -/
def truthWord? (s : String) : Option Bool :=
  let word := nameOf s
  if word = "true" ∨ word = "on" ∨ word = "yes" then some true
  else if word = "false" ∨ word = "off" ∨ word = "no" then some false
  else none

/-- The natural number below 2^64 nearest to a number. -/
def clampToNat (x : Float) : Nat :=
  if x.isNaN || signBit x then 0
  else if x.isInf then Width.unsignedBound - 1
  else min (Magnitude.ofFloat x).round (Width.unsignedBound - 1)

/-- A natural number below 2^64 written in digits, with an optional plus sign. -/
def natText? (s : List Char) : Option Nat :=
  let ds := match s with
    | '+' :: ds => ds
    | ds => ds
  (Reading.nat? ds).filter fun n => decide (n < Width.unsignedBound)

def natural? : Tree → Option Nat
  | int n => if n < 0 then none else some n.toNat
  | float x => some (clampToNat x)
  | bool b => some b.toNat
  | text s =>
      match truthWord? s with
      | some b => some b.toNat
      | none => natText? s.toList
  | _ => none

def float? : Tree → Option Float
  | int n => some (if n < 0 then -(Float.ofNat n.natAbs) else Float.ofNat n.natAbs)
  | float x => some x
  | bool b => some (Float.ofNat b.toNat)
  | text s =>
      match truthWord? s with
      | some b => some (Float.ofNat b.toNat)
      | none => Reading.float? s.toList
  | _ => none

def binary32? (t : Tree) : Option Binary32 := t.float?.map Binary32.ofFloat

def text? : Tree → Option String
  | text s => some s
  | int n => some (toString n)
  | float x => some (plainFloat x)
  | bool b => some (if b then "true" else "false")
  | _ => none

def nullable? {α : Type} (f : Tree → Option α) : Tree → Option (Option α)
  | null => some none
  | t => (f t).map some

/-- The field of a section by its position and name, or `none` if the value is no section. -/
def field? (i : Nat) (name : String) : Tree → Option (Option Tree)
  | table es => some (es.lookup name)
  | list xs => some xs[i]?
  | _ => none

def fieldOr {α : Type} (f : Tree → Option α) (i : Nat) (name : String) (default : α) (t : Tree) : Option α :=
  match t.field? i name with
  | none => none
  | some none => some default
  | some (some v) => f v

def cacheSettings? (t : Tree) : Option CacheSettings := do
  let some size ← t.field? 0 "max_size" | none
  let maxSize ← size.natural?
  let ttlSecs ← fieldOr (nullable? natural?) 1 "ttl_secs" none t
  some ⟨maxSize, ttlSecs⟩

def settings? (t : Tree) : Option Settings := do
  let logLevel ← fieldOr text? 0 "log_level" Settings.default.logLevel t
  let timeoutMs ← fieldOr (fieldOr natural? 0 "timeout_ms" Settings.default.timeoutMs) 1 "embedding"
    Settings.default.timeoutMs t
  let embeddingCache ← fieldOr cacheSettings? 2 "embedding_cache" .embeddingDefault t
  let queryCache ← fieldOr cacheSettings? 3 "query_cache" .queryDefault t
  let indexTtlSecs ← fieldOr (fieldOr natural? 0 "ttl_secs" Settings.default.indexTtlSecs) 4 "index_cache"
    Settings.default.indexTtlSecs t
  let semanticThreshold ← fieldOr (fieldOr binary32? 0 "semantic_threshold" defaultThreshold) 5 "areas"
    defaultThreshold t
  let defaultLimit ← fieldOr (fieldOr natural? 0 "default_limit" Settings.default.defaultLimit) 6 "search"
    Settings.default.defaultLimit t
  some ⟨logLevel, timeoutMs, embeddingCache, queryCache, indexTtlSecs, semanticThreshold, defaultLimit⟩

end Tree

end DeviceNaming.Settings
