import DeviceNaming.Settings.Basic
import DeviceNaming.Json.Fields

/-!
# Settings in a document

Settings are read from one document by their sections. Every section and nearly every field may be missing
and then has its default; a section for a cache that is there has to give its size, and has no
time limit unless it gives one.
-/

namespace DeviceNaming

open Json

namespace CacheSettings

def layout : Layout where
  name := "CacheSettings"
  fields := [
    .of "max_size" (Decoder.natural "usize"),
    .of "ttl_secs" (Decoder.nullable (Decoder.natural "u64"))]

def decoder : Decoder CacheSettings := Decoder.record layout fun fs => do
  let maxSize ← fs.required layout 0 "max_size" (Decoder.natural "usize")
  let ttlSecs ← fs.optional 1 "ttl_secs" (Decoder.nullable (Decoder.natural "u64")) none
  .ok ⟨maxSize, ttlSecs⟩

end CacheSettings

namespace Settings

/-- A section with one field. -/
def sectionDecoder {α : Type} (section_ field : String) (d : Decoder α) (default : α) : Decoder α :=
  Decoder.record ⟨section_, [.of field d]⟩ fun fs => fs.optional 0 field d default

def embeddingDecoder : Decoder Nat :=
  sectionDecoder "EmbeddingSettings" "timeout_ms" (Decoder.natural "u64") default.timeoutMs

def indexCacheDecoder : Decoder Nat :=
  sectionDecoder "IndexCacheSettings" "ttl_secs" (Decoder.natural "u64") default.indexTtlSecs

def areasDecoder : Decoder Binary32 :=
  sectionDecoder "AreaSettings" "semantic_threshold" Decoder.binary32 defaultThreshold

def searchDecoder : Decoder Nat :=
  sectionDecoder "SearchSettings" "default_limit" (Decoder.natural "usize") default.defaultLimit

def layout : Layout where
  name := "Settings"
  fields := [
    .of "log_level" Decoder.text,
    .of "embedding" embeddingDecoder,
    .of "embedding_cache" CacheSettings.decoder,
    .of "query_cache" CacheSettings.decoder,
    .of "index_cache" indexCacheDecoder,
    .of "areas" areasDecoder,
    .of "search" searchDecoder]

def decoder : Decoder Settings := Decoder.record layout fun fs => do
  let logLevel ← fs.optional 0 "log_level" Decoder.text default.logLevel
  let timeoutMs ← fs.optional 1 "embedding" embeddingDecoder default.timeoutMs
  let embeddingCache ← fs.optional 2 "embedding_cache" CacheSettings.decoder default.embeddingCache
  let queryCache ← fs.optional 3 "query_cache" CacheSettings.decoder default.queryCache
  let indexTtlSecs ← fs.optional 4 "index_cache" indexCacheDecoder default.indexTtlSecs
  let semanticThreshold ← fs.optional 5 "areas" areasDecoder defaultThreshold
  let defaultLimit ← fs.optional 6 "search" searchDecoder default.defaultLimit
  .ok ⟨logLevel, timeoutMs, embeddingCache, queryCache, indexTtlSecs, semanticThreshold, defaultLimit⟩

def ofBytes? (bytes : ByteArray) : Except DecodeError Settings :=
  decode decoder (Source.ofBytes bytes)

end Settings

end DeviceNaming
