import DeviceNaming.Number.DecimalText

/-!
# Settings

The settings of a resolver, their defaults, and the rules that a usable set of settings meets.
`Settings.invalid?` gives the first rule that is broken; the sections are looked at in a fixed order.
-/

namespace DeviceNaming

/-- Bounds of a cache: how many entries it keeps and how long an entry stays fresh. -/
structure CacheSettings where
  maxSize : Nat
  ttlSecs : Option Nat
deriving DecidableEq, Repr

/-- The settings of a resolver. -/
structure Settings where
  logLevel : String
  /-- how long the provider may take, in milliseconds -/
  timeoutMs : Nat
  embeddingCache : CacheSettings
  queryCache : CacheSettings
  /-- how long the index of a household stays fresh, in seconds -/
  indexTtlSecs : Nat
  /-- the similarity that an area has to exceed -/
  semanticThreshold : Binary32
  /-- how many matches are given when nothing else is asked for -/
  defaultLimit : Nat
deriving DecidableEq, Repr

namespace CacheSettings

/-- The bounds of the embedding cache unless set otherwise. -/
def embeddingDefault : CacheSettings := ⟨1000, none⟩

/-- The bounds of a query cache unless set otherwise. -/
def queryDefault : CacheSettings := ⟨500, some 300⟩

/-- The rule of the section that the bounds break. -/
def invalid? (c : CacheSettings) (section_ : String) : Option String :=
  if c.maxSize = 0 then some (section_ ++ ".max_size must be > 0")
  else if c.ttlSecs = some 0 then some (section_ ++ ".ttl_secs must be > 0 when set")
  else none

end CacheSettings

namespace Settings

/-- The similarity threshold unless set otherwise: the binary32 number nearest to 0.7. -/
def defaultThreshold : Binary32 := ⟨0x3F333333⟩

/-- The settings unless set otherwise. -/
def default : Settings where
  logLevel := "info"
  timeoutMs := 2000
  embeddingCache := .embeddingDefault
  queryCache := .queryDefault
  indexTtlSecs := 3600
  semanticThreshold := defaultThreshold
  defaultLimit := 5

/-- Is the threshold a similarity? What is no number is none. -/
def thresholdInRange (x : Binary32) : Bool :=
  Binary32.le ⟨0xBF800000⟩ x && Binary32.le x ⟨0x3F800000⟩

/-- The first rule that the settings break. -/
def invalid? (s : Settings) : Option String :=
  if s.timeoutMs = 0 then some "embedding.timeout_ms must be > 0"
  else (s.embeddingCache.invalid? "embedding_cache").or <|
    (s.queryCache.invalid? "query_cache").or <|
      if !thresholdInRange s.semanticThreshold then
        some ("areas.semantic_threshold must be -1.0..=1.0, got " ++ s.semanticThreshold.plain)
      else if s.indexTtlSecs = 0 then some "index_cache.ttl_secs must be > 0"
      else if s.defaultLimit = 0 then some "search.default_limit must be > 0"
      else none

end Settings

end DeviceNaming
