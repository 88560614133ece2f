import DeviceNaming.Entity.Search
import DeviceNaming.Proofs.Embedding.Steady
import DeviceNaming.Proofs.Entity.Mirror
import DeviceNaming.Proofs.Order.StableSort
import Mathlib.Data.List.Basic

/-!
# What a search finds

With a steady provider a search is a function of the entries and the query: `Embedder.ranking` scores every
entry by itself, without a reverse index and without a cache, and sorts. `EntityIndex.search` gives this
ranking as long as the reverse indexes mirror the entries, the embeddings are of one dimension
(`EntityIndex.Measured`), and the rankings in the query cache are those of the present entries
(`EntityIndex.Current`): `EntityIndex.search_spec`.
-/

namespace DeviceNaming

attribute [local irreducible] Text.normalize

namespace EntityIndex

/-- The score of a device for a normal form whose lookup ended in the given way. -/
def scoreOf (found : Lookup) (text : String) (e : EntityEntry) : Option Binary32 :=
  match found with
  | .ready v => bestScore (e.embeddings.map fun w => Embedding.cosine v w)
  | .unavailable _ => letterScore text (decide (text ∈ e.normalNames)) e

/-- The match of a device, if it has a score. -/
def matchOf (found : Lookup) (text : String) (e : EntityEntry) : Option EntityMatch :=
  (scoreOf found text e).map fun score => ⟨e.entityId, score⟩

/-- The ranking of some entries for a query in normal form. -/
def rankingOf (found : Lookup) (entries : List EntityEntry) (q : Query) : List EntityMatch :=
  ranked q.limit <| (entries.filter fun e => e.passes q.domain q.areaId).filterMap (matchOf found q.text)

end EntityIndex

open EntityIndex

/-- The ranking of some entries for a query. -/
def Embedder.ranking (e : Embedder) (entries : List EntityEntry) (q : Query) : List EntityMatch :=
  match Text.normalize? q.text with
  | none => []
  | some text => rankingOf (e.answerFor text) entries { q with text }

namespace EntityIndex

variable {e : Embedder} {x y : EntityIndex} {s : Shared}

/-- All embeddings are of the declared dimension. -/
def Measured (e : Embedder) (x : EntityIndex) : Prop :=
  ∀ y ∈ x.entries.values, ∀ v ∈ y.embeddings, e.Fits v

/-- The rankings in the query cache are those of the present entries. -/
def Current (e : Embedder) (x : EntityIndex) : Prop :=
  x.queries.Holds fun q found =>
    Text.normalize? q.text = some q.text ∧ found = e.ranking x.ordered q

theorem Measured.of_alike (M : x.Measured e) (A : x.Alike y) : y.Measured e := by
  rw [Measured, A.entries]
  exact M

theorem current_of_entries_eq_nil (h : x.queries.entries = []) : x.Current e :=
  BoundedCache.holds_of_entries_eq_nil h

/-! ## Search by similarity -/

theorem similarities_eq {v : Embedding} {vs : List Embedding} (h : ∀ w ∈ vs, v.length = w.length) :
    similarities v vs = .ok (vs.map fun w => Embedding.cosine v w) := by
  induction vs with
  | nil => rfl
  | cons w vs ih =>
    rw [similarities, Embedding.similarity?, if_pos (h w List.mem_cons_self),
      ih fun w' hw' => h w' (List.mem_cons_of_mem _ hw')]
    rfl

theorem similarMatches_eq {v : Embedding} {es : List EntityEntry} (text : String)
    (h : ∀ y ∈ es, ∀ w ∈ y.embeddings, v.length = w.length) :
    similarMatches v es = .ok (es.filterMap (matchOf (.ready v) text)) := by
  induction es with
  | nil => rfl
  | cons y es ih =>
    rw [similarMatches, similarities_eq (h y List.mem_cons_self),
      ih fun y' hy' => h y' (List.mem_cons_of_mem _ hy')]
    cases hbest : bestScore (y.embeddings.map fun w => Embedding.cosine v w) with
    | none =>
      rw [List.filterMap_cons_none (by rw [matchOf, scoreOf, hbest]; rfl)]
      simp only [bind, Except.bind, hbest]
    | some score =>
      rw [List.filterMap_cons_some (by rw [matchOf, scoreOf, hbest]; rfl)]
      simp only [bind, Except.bind, hbest]

theorem searchSimilar_eq (M : x.Measured e) {v : Embedding} (hv : e.Fits v) (q : Query) :
    x.searchSimilar v q.domain q.areaId q.limit = .ok (rankingOf (.ready v) x.ordered q) := by
  rw [searchSimilar, candidates, similarMatches_eq q.text fun y hy w hw =>
    hv.length_eq (M y (mem_values_of_mem_ordered (List.mem_filter.1 hy).1) w hw)]
  rfl

/-! ## Search by letters -/

theorem Mirrors.mem_names_iff (H : x.Mirrors) {y : EntityEntry} (hy : y ∈ x.entries.values)
    (text : String) : y.entityId ∈ x.names.ids text ↔ text ∈ y.normalNames := by
  rw [H.names, H.find?_entityId hy]
  simp

theorem searchExact_eq (H : x.Mirrors) (q : Query) (r : Unavailable) :
    x.searchExact q =
      match Text.normalize? q.text with
      | none => []
      | some text => rankingOf (.unavailable r) x.ordered { q with text } := by
  unfold searchExact
  cases Text.normalize? q.text with
  | none => rfl
  | some text =>
    refine congrArg (ranked q.limit) (List.filterMap_congr fun y hy => ?_)
    have hiff := H.mem_names_iff (mem_values_of_mem_ordered (List.mem_filter.1 hy).1) text
    simp only [matchOf, scoreOf, hiff]

/-! ## Search by name -/

theorem ranking_of_normal {q : Query} (h : Text.normalize? q.text = some q.text)
    (entries : List EntityEntry) :
    e.ranking entries q = rankingOf (e.answerFor q.text) entries q := by
  rw [Embedder.ranking, h]

/-- What is not in the query cache is ranked anew; the devices and the query cache stay as they are. -/
theorem rank_spec (H : x.Mirrors) (M : x.Measured e) (he : e.Steady) (hs : s.Coherent e) {q : Query}
    (hq : Text.normalize? q.text = some q.text) :
    ∃ z, x.rank e q s = (.ok (e.ranking x.ordered q), z, (e.embed q.text s).2) ∧
      x.Alike z ∧ z.queries = x.queries := by
  have hanswer := (hs.embed he q.text).1
  rw [Embedder.answer_of_normal hq] at hanswer
  rw [ranking_of_normal hq, rank]
  rcases hembed : e.embed q.text s with ⟨v | r, t⟩
  · rw [hembed] at hanswer
    have hv : e.answerFor q.text = .ready v := hanswer.symm
    refine ⟨_, Prod.ext ?_ rfl, ⟨rfl, rfl, rfl, rfl⟩, rfl⟩
    rw [hv]
    exact searchSimilar_eq M (he.fits_of_answerFor hv) q
  · rw [hembed] at hanswer
    have hr : e.answerFor q.text = .unavailable r := hanswer.symm
    refine ⟨_, Prod.ext ?_ rfl, ⟨rfl, rfl, rfl, rfl⟩, rfl⟩
    rw [hr, searchExact_eq H q r, hq]

theorem search_of_normalize?_eq_none {q : Query} (h : Text.normalize? q.text = none) :
    x.search e q s = (.ok [], x, s) := by
  rw [search, h]

/-- The index once it has counted a search and looked into its query cache. -/
def looked (x : EntityIndex) (queries : QueryCache) : EntityIndex :=
  { x with queries, counters := { x.counters with searches := x.counters.searches + 1 } }

section
variable {q : Query} {text : String} (hq : Text.normalize? q.text = some text)
include hq

theorem getQuery_eq (c : QueryCache) (now : Nat) :
    QueryCache.getQuery c now (Query.normal { q with text }) = c.get now { q with text } := by
  obtain ⟨hnormal, hne⟩ := Text.normalize?_eq_some_iff.1 (Text.normalize?_of_eq_some hq)
  rw [Query.normal, hnormal, QueryCache.getQuery, if_neg hne]

theorem putQuery_eq (c : QueryCache) (now : Nat) (found : List EntityMatch) :
    QueryCache.putQuery c now (Query.normal { q with text }) found = c.put now { q with text } found := by
  obtain ⟨hnormal, hne⟩ := Text.normalize?_eq_some_iff.1 (Text.normalize?_of_eq_some hq)
  rw [Query.normal, hnormal, QueryCache.putQuery, if_neg hne]

theorem search_hit {found : List EntityMatch} {queries : QueryCache}
    (h : x.queries.get s.now { q with text } = (some found, queries)) :
    ∃ z, x.search e q s = (.ok found, z, s) ∧ x.Alike z ∧ z.queries = queries := by
  refine ⟨{ x.looked queries with counters := { (x.looked queries).counters with
    queryCacheHits := x.counters.queryCacheHits + 1 } }, ?_, ⟨rfl, rfl, rfl, rfl⟩, rfl⟩
  rw [search, hq]
  dsimp only
  rw [getQuery_eq hq, h]
  rfl

theorem search_miss {found : List EntityMatch} {queries : QueryCache} {z : EntityIndex} {t : Shared}
    (h : x.queries.get s.now { q with text } = (none, queries))
    (hrank : (x.looked queries).rank e { q with text } s = (.ok found, z, t)) :
    x.search e q s =
      (.ok found, { z with queries := z.queries.put t.now { q with text } found }, t) := by
  rw [search, hq]
  dsimp only
  rw [getQuery_eq hq, h]
  dsimp only
  rw [show rank e { q with text } { x with queries, counters := _ } s = _ from hrank]
  dsimp only
  rw [putQuery_eq hq]

end

theorem alike_rank (e : Embedder) (q : Query) (x : EntityIndex) (s : Shared) :
    x.Alike (x.rank e q s).2.1 := by
  unfold rank
  split <;> exact ⟨rfl, rfl, rfl, rfl⟩

/-- Whatever the provider answers, a search leaves the devices as they are. -/
theorem alike_search (e : Embedder) (q : Query) (x : EntityIndex) (s : Shared) :
    x.Alike (x.search e q s).2.1 := by
  unfold search
  split
  · exact .refl x
  · rename_i text _
    dsimp only
    split
    · exact ⟨rfl, rfl, rfl, rfl⟩
    · rename_i queries _
      have hrank := alike_rank e { q with text } (x.looked queries) s
      split
      · rename_i found z t h
        rw [show (x.looked queries).rank e { q with text } s = _ from h] at hrank
        exact ⟨hrank.order, hrank.entries, hrank.names, hrank.places⟩
      · exact ⟨hrank.order, hrank.entries, hrank.names, hrank.places⟩

/-- A search never fails and leaves the devices as they are. While the query cache is current, it finds the
ranking of the present entries, and the query cache stays current. -/
theorem search_spec (H : x.Mirrors) (M : x.Measured e) (he : e.Steady) (hs : s.Coherent e) (q : Query) :
    ∃ found z t, x.search e q s = (.ok found, z, t) ∧ x.Alike z ∧ t.Coherent e ∧ s.LeadsTo e t ∧
      (x.Current e → found = e.ranking x.ordered q ∧ z.Current e) := by
  cases hq : Text.normalize? q.text with
  | none =>
    refine ⟨_, _, _, search_of_normalize?_eq_none hq, .refl x, hs, .refl s, fun C => ⟨?_, C⟩⟩
    rw [Embedder.ranking, hq]
  | some text =>
    have hq' : Text.normalize? (Query.text { q with text }) = some text := Text.normalize?_of_eq_some hq
    have hranking : e.ranking x.ordered { q with text } = e.ranking x.ordered q := by
      rw [ranking_of_normal hq', Embedder.ranking, hq]
    rcases hget : x.queries.get s.now { q with text } with ⟨found | found, queries⟩
    · have hqueries : x.Current e → (x.looked queries).Current e := fun C => by
        have h := BoundedCache.Holds.get C s.now { q with text }
        rwa [hget] at h
      obtain ⟨z, hrank, A, hz⟩ := rank_spec (x := x.looked queries) (H.of_alike ⟨rfl, rfl, rfl, rfl⟩)
        (M.of_alike ⟨rfl, rfl, rfl, rfl⟩) he hs hq'
      refine ⟨_, _, _, search_miss hq hget hrank, ⟨A.order, A.entries, A.names, A.places⟩,
        (hs.embed he text).2, .embed e text s, fun C => ⟨hranking, ?_⟩⟩
      have hz' : z.Current e := by
        rw [Current, hz, A.ordered]
        exact hqueries C
      refine BoundedCache.Holds.put hz' ⟨hq', ?_⟩ _
      exact congrArg (fun es => e.ranking es _) A.ordered.symm
    · obtain ⟨z, hsearch, A, hz⟩ := search_hit (e := e) hq hget
      refine ⟨_, _, _, hsearch, A, hs, .refl s, fun C => ?_⟩
      have hfound := (BoundedCache.Holds.of_get C (congrArg Prod.fst hget)).2
      refine ⟨hfound.trans hranking, ?_⟩
      rw [Current, hz, A.ordered]
      have h := BoundedCache.Holds.get C s.now { q with text }
      rwa [hget] at h

end EntityIndex

end DeviceNaming
