import DeviceNaming.Cache.Bounded
import DeviceNaming.Embedding.Similarity
import DeviceNaming.Settings.Basic
import DeviceNaming.Text.Normal

/-!
# The embedding cache

Keeps the embeddings of texts under their normal forms. A blank text has no entry, and looking one up is not
counted.
-/

namespace DeviceNaming

/-- Embeddings by the normal form of their text. -/
abbrev EmbeddingCache := BoundedCache String Embedding

/-- An empty cache within the bounds of settings; `α` is what it keeps. -/
def CacheSettings.emptyCache {κ α : Type} (c : CacheSettings) : BoundedCache κ α :=
  .empty c.maxSize (c.ttlSecs.map (· * 1000))

namespace EmbeddingCache

def getText (c : EmbeddingCache) (now : Nat) (text : String) : Option Embedding × EmbeddingCache :=
  match Text.normalize? text with
  | some key => c.get now key
  | none => (none, c)

def putText (c : EmbeddingCache) (now : Nat) (text : String) (e : Embedding) : EmbeddingCache :=
  match Text.normalize? text with
  | some key => c.put now key e
  | none => c

end EmbeddingCache

end DeviceNaming
