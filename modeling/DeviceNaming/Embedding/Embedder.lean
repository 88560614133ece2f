import DeviceNaming.Cache.Embeddings
import DeviceNaming.Embedding.Provider
import DeviceNaming.Order.StableSort

/-!
# Looking embeddings up

An embedder looks a text up in the embedding cache and asks the provider for what is not there, under a
time limit. A text without an embedding is no error: the lookup says why there is none.

All embedders of a process share a clock, a cache, counters and the list of texts the provider was asked for
(`Shared`). `embed` looks one text up and takes as long as the provider. `embedMany` starts all its lookups at
the same instant, in order; one that needs no time is over before the next starts, and the others end in
the order of their waiting times, so that it takes as long as the longest.
-/

namespace DeviceNaming

/-- Why a text has no embedding. -/
inductive Unavailable where
  | emptyInput
  | noProvider
  | timeout
  | failed
  | dimensionMismatch
deriving DecidableEq, Repr

inductive Lookup where
  | ready (e : Embedding)
  | unavailable (reason : Unavailable)
deriving DecidableEq, Repr

def Lookup.embedding? : Lookup → Option Embedding
  | ready e => some e
  | unavailable _ => none

theorem Lookup.embedding?_eq_some_iff {l : Lookup} {v : Embedding} :
    l.embedding? = some v ↔ l = .ready v := by
  cases l <;> simp [embedding?]

/-- What the embedders of a process have counted. -/
structure EmbedderMetrics where
  cacheHits : Nat := 0
  providerCalls : Nat := 0
  providerFailures : Nat := 0
  timeouts : Nat := 0
  dimensionMismatches : Nat := 0
  skippedNoProvider : Nat := 0
deriving DecidableEq, Repr

namespace EmbedderMetrics

/-- The lookups of texts that are not blank and have no embedding. -/
def totalUnavailable (m : EmbedderMetrics) : Nat :=
  m.providerFailures + m.timeouts + m.dimensionMismatches + m.skippedNoProvider

/-- Counts the outcome of a call to the provider. -/
def countOutcome (m : EmbedderMetrics) : Lookup → EmbedderMetrics
  | .unavailable .timeout => { m with timeouts := m.timeouts + 1 }
  | .unavailable .failed => { m with providerFailures := m.providerFailures + 1 }
  | .unavailable .dimensionMismatch => { m with dimensionMismatches := m.dimensionMismatches + 1 }
  | _ => m

end EmbedderMetrics

/-- What all embedders of a process share. -/
structure Shared where
  /-- the clock, in milliseconds -/
  now : Nat
  cache : EmbeddingCache
  metrics : EmbedderMetrics
  /-- the texts the provider was asked for, in order -/
  asked : List String

namespace Shared

def start (c : CacheSettings) : Shared := ⟨0, c.emptyCache, {}, []⟩

def advance (s : Shared) (ms : Nat) : Shared := { s with now := s.now + ms }

def clearCache (s : Shared) : Shared := { s with cache := s.cache.clear }

/-- Drops the expired embeddings from the cache; gives their number. -/
def cleanupCache (s : Shared) : Nat × Shared :=
  let (dropped, cache) := s.cache.cleanup s.now
  (dropped, { s with cache })

end Shared

/-- An embedder: where embeddings come from, and for how long they are waited for, in milliseconds. -/
structure Embedder where
  provider : Option Provider
  timeout : Nat

/-- A call to the provider under way. -/
structure Call where
  key : String
  dimension : Nat
  timeout : Nat
  reply : Reply

namespace Call

def wait (c : Call) : Nat := min c.reply.delay c.timeout

/-- How the call ends. A vector has to be of the declared dimension and must not be empty. -/
def outcome (c : Call) : Lookup :=
  if c.timeout < c.reply.delay then .unavailable .timeout
  else
    match c.reply.outcome with
    | .error _ => .unavailable .failed
    | .ok v =>
        if v.isEmpty || (decide (0 < c.dimension) && v.length != c.dimension) then
          .unavailable .dimensionMismatch
        else .ready v

/-- What the end of the call leaves behind: it is counted, and an embedding goes into the cache. -/
def settle (c : Call) (s : Shared) : Shared :=
  let metrics := s.metrics.countOutcome c.outcome
  match c.outcome with
  | .ready e => { s with metrics, cache := s.cache.putText s.now c.key e }
  | .unavailable _ => { s with metrics }

end Call

/-- A lookup that has started: it is over, or it waits for the provider. -/
inductive Started where
  | done (l : Lookup)
  | waiting (c : Call)

def Started.outcome : Started → Lookup
  | done l => l
  | waiting c => c.outcome

/-- The call that a started lookup waits for. -/
def Started.call? : Started → Option Call
  | done _ => none
  | waiting c => some c

namespace Embedder

/-- An embedder without a provider. -/
def disabled : Embedder := ⟨none, Settings.default.timeoutMs⟩

/-- Starts the lookup of a text. -/
def start (e : Embedder) (text : String) (s : Shared) : Started × Shared :=
  match Text.normalize? text with
  | none => (.done (.unavailable .emptyInput), s)
  | some key =>
      match s.cache.getText s.now key with
      | (some v, cache) =>
          (.done (.ready v),
            { s with cache, metrics := { s.metrics with cacheHits := s.metrics.cacheHits + 1 } })
      | (none, cache) =>
          match e.provider with
          | none =>
              (.done (.unavailable .noProvider),
                { s with cache, metrics := { s.metrics with
                    skippedNoProvider := s.metrics.skippedNoProvider + 1 } })
          | some p =>
              (.waiting ⟨key, p.dimension, e.timeout, p.reply s.now s.asked key⟩,
                { s with
                  cache
                  metrics := { s.metrics with providerCalls := s.metrics.providerCalls + 1 }
                  asked := s.asked ++ [key] })

def embed (e : Embedder) (text : String) (s : Shared) : Lookup × Shared :=
  match e.start text s with
  | (.done l, s) => (l, s)
  | (.waiting c, s) => (c.outcome, c.settle (s.advance c.wait))

/-- Starts a lookup, and ends it if it needs no time. -/
def launch (e : Embedder) (text : String) (s : Shared) : Started × Shared :=
  match e.start text s with
  | (.waiting c, s) =>
      if c.reply.delay = 0 then (.done c.outcome, c.settle s) else (.waiting c, s)
  | started => started

/-- Starts lookups one after the other at the same instant. -/
def launchAll (e : Embedder) : List String → Shared → List Started × Shared
  | [], s => ([], s)
  | text :: texts, s =>
      let (first, s) := e.launch text s
      let (rest, s) := e.launchAll texts s
      (first :: rest, s)

/-- Ends calls that started at `since`, in their order. -/
def settleAll (since : Nat) : List Call → Shared → Shared
  | [], s => s
  | c :: cs, s => settleAll since cs (c.settle { s with now := since + c.wait })

/-- Looks up the embeddings of texts at the same time. -/
def embedMany (e : Embedder) (texts : List String) (s : Shared) : List Lookup × Shared :=
  let since := s.now
  let (started, s) := e.launchAll texts s
  let calls := stableSort (fun a b => decide (a.wait ≤ b.wait)) (started.filterMap Started.call?)
  (started.map Started.outcome, settleAll since calls s)

end Embedder

end DeviceNaming
