import DeviceNaming.Area.Resolution
import DeviceNaming.Entity.Search
import DeviceNaming.Proofs.Cache.History
import DeviceNaming.Proofs.Text.Normal

/-!
# Normal forms as keys

A text and its normal form are the same to whatever keeps or looks up things under names: the embedder and its cache,
the query cache, the searches, and the indexes of names. Two texts of different normal forms have nothing to do with
each other in a cache: what is stored under one is never found under the other (`EmbeddingCache.getText_putText_ne`,
`QueryCache.getQuery_putQuery_ne`).

`normal_form_is_key` gathers this.
-/

namespace DeviceNaming

open Text (normalize normalize? normalize_normalize normalize?_normalize)

attribute [local irreducible] Text.normalize

/-! ## Caches -/

namespace BoundedCache

variable {κ α : Type} [DecidableEq κ] {c : BoundedCache κ α} {j k : κ}

/-- What is found after a write under another key was there before. -/
theorem find?_of_find?_put {now : Nat} {v : α} {x : CacheEntry κ α} (hne : j ≠ k)
    (h : (c.put now k v).find? j = some x) : c.find? j = some x := by
  have hkept : (⟨k, v, now⟩ :: c.without k).find? (fun e => decide (e.key = j)) = some x :=
    (List.take_prefix _ _).find?_eq_some h
  rw [List.find?_cons_of_neg (by simpa using hne.symm), without, List.find?_filter] at hkept
  -- the write takes nothing from the other keys
  have hsame : (fun e : CacheEntry κ α => decide (decide (e.key ≠ k) = true ∧ decide (e.key = j) = true)) =
      fun e => decide (e.key = j) := by
    funext e
    by_cases he : e.key = j <;> simp [he, hne]
  rwa [hsame] at hkept

theorem get_of_get_put {now later : Nat} {v w : α} (hne : j ≠ k) (h : ((c.put now k v).get later j).1 = some w) :
    (c.get later j).1 = some w := by
  obtain ⟨x, hfind, hnew, hvalue⟩ := get_eq_some_iff.1 h
  exact get_eq_some_iff.2 ⟨x, find?_of_find?_put hne hfind, hnew, hvalue⟩

end BoundedCache

namespace EmbeddingCache

variable {c : EmbeddingCache} {a b : String}

theorem getText_normalize (c : EmbeddingCache) (now : Nat) (text : String) :
    c.getText now (normalize text) = c.getText now text := by
  rw [getText, getText, normalize?_normalize]

theorem putText_normalize (c : EmbeddingCache) (now : Nat) (text : String) (v : Embedding) :
    c.putText now (normalize text) v = c.putText now text v := by
  rw [putText, putText, normalize?_normalize]

/-- An embedding stored for one text is not found for a text of another normal form. -/
theorem getText_putText_ne {now later : Nat} {v w : Embedding} (hne : normalize a ≠ normalize b)
    (h : ((c.putText now a v).getText later b).1 = some w) : (c.getText later b).1 = some w := by
  unfold putText at h
  split at h
  · rename_i key ha
    unfold getText at h ⊢
    split at h
    · rename_i key' hb
      rw [(Text.normalize?_eq_some_iff.1 ha).1, (Text.normalize?_eq_some_iff.1 hb).1] at hne
      exact BoundedCache.get_of_get_put hne.symm h
    · cases h
  · exact h

end EmbeddingCache

theorem Query.normal_normal (q : Query) : q.normal.normal = q.normal := by
  rw [normal, normal, normalize_normalize]

/-- A ranking stored for one query is not found for a query of another normal form. -/
theorem QueryCache.getQuery_putQuery_ne {c : QueryCache} {p q : Query} {now later : Nat}
    {found found' : List EntityMatch} (hne : normalize p.text ≠ normalize q.text)
    (h : (getQuery (putQuery c now p.normal found) later q.normal).1 = some found') :
    (getQuery c later q.normal).1 = some found' := by
  unfold putQuery at h
  split at h
  · exact h
  · unfold getQuery at h ⊢
    split at h
    · cases h
    · rename_i hblank
      rw [if_neg hblank]
      exact BoundedCache.get_of_get_put (fun heq => hne (congrArg Query.text heq).symm) h

/-! ## Lookups -/

theorem Embedder.embed_normalize (e : Embedder) (text : String) (s : Shared) :
    e.embed (normalize text) s = e.embed text s := by
  have hstart : e.start (normalize text) s = e.start text s := by
    rw [start, start, normalize?_normalize]
  rw [embed, embed, hstart]

namespace EntityIndex

theorem searchExact_normal (x : EntityIndex) (q : Query) : x.searchExact q.normal = x.searchExact q := by
  rw [searchExact, searchExact, Query.normal, normalize?_normalize]

theorem search_normal (e : Embedder) (q : Query) (x : EntityIndex) (s : Shared) :
    x.search e q.normal s = x.search e q s := by
  rw [search, search, Query.normal, normalize?_normalize]

end EntityIndex

namespace AreaRegistry

theorem resolve_normalize (e : Embedder) (g : AreaRegistry) (text : String) (semantic : Bool) (s : Shared) :
    g.resolve e (normalize text) semantic s = g.resolve e text semantic s := by
  rw [resolve, resolve, normalize?_normalize]

theorem mentioned?_normalize (g : AreaRegistry) (query : String) : g.mentioned? (normalize query) = g.mentioned? query := by
  rw [mentioned?, mentioned?, normalize?_normalize]

end AreaRegistry

/-! ## Indexes of names -/

/-- The entry of a device whose names are given in normal form. -/
def EntityEntry.normal (y : EntityEntry) : EntityEntry :=
  { y with variants := y.variants.map fun v => { v with name := normalize v.name } }

/-- An area whose names are given in normal form. -/
def Area.normal (a : Area) : Area := { a with name := normalize a.name, aliases := a.aliases.map normalize }

theorem EntityEntry.normalNames_normal (y : EntityEntry) : y.normal.normalNames = y.normalNames := by
  simp only [normalNames, names, normal, List.map_map, Function.comp_def, normalize_normalize]

theorem Area.normalLabels_normal (a : Area) : a.normal.normalLabels = a.normalLabels := by
  have hlabels : a.normal.labels = a.labels.map normalize := rfl
  simp only [normalLabels, hlabels, List.filterMap_map, Function.comp_def, normalize?_normalize]

/-! ## The normal form of a text -/

/-- A normal form is its own normal form and begins and ends with no blank, and only blank texts have an empty one. A
text and its normal form are found by the embedder, in both caches, by the searches and in the indexes of names as
one, and what a cache keeps for one normal form is never found under another. -/
theorem normal_form_is_key :
    (∀ text, normalize (normalize text) = normalize text ∧ Text.Trimmed (normalize text).toList ∧
      (normalize? text = none ↔ ∀ c ∈ text.toList, Text.isBlank c = true)) ∧
    (∀ (c : EmbeddingCache) now text, c.getText now (normalize text) = c.getText now text ∧
      ∀ v, c.putText now (normalize text) v = c.putText now text v) ∧
    (∀ q : Query, Query.normal { q with text := normalize q.text } = q.normal) ∧
    (∀ (e : Embedder) text s, e.embed (normalize text) s = e.embed text s) ∧
    (∀ (e : Embedder) (q : Query) (x : EntityIndex) s,
      x.search e { q with text := normalize q.text } s = x.search e q s ∧
        x.searchExact { q with text := normalize q.text } = x.searchExact q) ∧
    (∀ (e : Embedder) (g : AreaRegistry) text semantic s,
      g.resolve e (normalize text) semantic s = g.resolve e text semantic s ∧
        g.mentioned? (normalize text) = g.mentioned? text) ∧
    (∀ y : EntityEntry, y.normal.normalNames = y.normalNames) ∧
    (∀ a : Area, a.normal.normalLabels = a.normalLabels) ∧
    (∀ (c : EmbeddingCache) now later a b v w, normalize a ≠ normalize b →
      ((c.putText now a v).getText later b).1 = some w → (c.getText later b).1 = some w) ∧
    ∀ (c : QueryCache) now later (p q : Query) found found', normalize p.text ≠ normalize q.text →
      (QueryCache.getQuery (QueryCache.putQuery c now p.normal found) later q.normal).1 = some found' →
        (QueryCache.getQuery c later q.normal).1 = some found' := by
  refine ⟨fun text => ⟨normalize_normalize text, Text.trimmed_normalize text, Text.normalize?_eq_none_iff⟩,
    fun c now text => ⟨c.getText_normalize now text, c.putText_normalize now text⟩, Query.normal_normal,
    Embedder.embed_normalize, fun e q x s => ⟨x.search_normal e q s, x.searchExact_normal q⟩,
    fun e g text semantic s => ⟨g.resolve_normalize e text semantic s, g.mentioned?_normalize text⟩,
    EntityEntry.normalNames_normal, Area.normalLabels_normal, ?_, ?_⟩
  · exact fun c now later a b v w hne h => EmbeddingCache.getText_putText_ne hne h
  · exact fun c now later p q found found' hne h => QueryCache.getQuery_putQuery_ne hne h

/-- A street in Greek, whose last sigma is a final one, and a letter that becomes two. -/
theorem normal_form_is_key_street :
    let street := "\u2003ΟΔΟΣ İ\n"
    let cache := EmbeddingCache.putText (.empty 2 none) 0 "Σ" [.one]
    let queries := QueryCache.putQuery (.empty 2 none) 0 ⟨"σ", none, none, 5⟩ []
    normalize street = "οδος i\u0307" ∧ normalize "οδος i\u0307" = "οδος i\u0307" ∧
      normalize street ≠ normalize " Σ" ∧
      ((EmbeddingCache.putText cache 1 street [.zero]).getText 2 " Σ").1 = some [.one] ∧
      (cache.getText 2 " Σ").1 = some [.one] ∧
      (QueryCache.getQuery (QueryCache.putQuery queries 1 (Query.normal ⟨street, none, none, 5⟩) []) 2
        (Query.normal ⟨" Σ", none, none, 5⟩)).1 = some [] ∧
      (QueryCache.getQuery queries 2 (Query.normal ⟨" Σ", none, none, 5⟩)).1 = some [] := by
  intro street cache queries
  obtain ⟨hnormal, -, -, -, -, -, -, -, hcache, hquery⟩ := normal_form_is_key
  have hstreet : normalize street = "οδος i\u0307" := by decide +kernel
  have hne : normalize street ≠ normalize " Σ" := by decide +kernel
  have hfound : ((cache.putText 1 street [.zero]).getText 2 " Σ").1 = some [.one] := by decide +kernel
  have hranked : (QueryCache.getQuery (QueryCache.putQuery queries 1 (Query.normal ⟨street, none, none, 5⟩) []) 2
      (Query.normal ⟨" Σ", none, none, 5⟩)).1 = some [] := by decide +kernel
  exact ⟨hstreet, hstreet ▸ (hnormal street).1, hne, hfound, hcache _ _ _ _ _ _ _ hne hfound, hranked,
    hquery _ _ _ _ _ _ _ hne hranked⟩

end DeviceNaming
