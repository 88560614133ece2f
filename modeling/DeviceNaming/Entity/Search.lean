import DeviceNaming.Entity.Index
import DeviceNaming.Text.Search

/-!
# Searching the entity index

`EntityIndex.search` ranks the devices that a text may mean. With an embedding of the text each device has the
similarity of its most similar name; without one, `searchExact` compares the letters: a name that contains the
text or is contained in it scores the ratio of their lengths, and a device that bears the text as a name scores
at least 1. Either way the best come first, devices of equal score in the order of the index, and the ranking
is kept in the query cache.
-/

namespace DeviceNaming

namespace EntityIndex

/-- The devices that pass the filters, in order. -/
def candidates (x : EntityIndex) (domain areaId : Option String) : List EntityEntry :=
  x.ordered.filter fun e => e.passes domain areaId

/-- The largest of some scores, the last on a tie. -/
def bestScore : List Binary32 → Option Binary32
  | [] => none
  | x :: xs => some (xs.foldl Binary32.max x)

/-- May the first match stand before the second? -/
def ranksBefore (a b : EntityMatch) : Bool := decide (b.score.rank ≤ a.score.rank)

/-- The best matches, best first. -/
def ranked (limit : Nat) (found : List EntityMatch) : List EntityMatch :=
  (stableSort ranksBefore found).take limit

def similarities (query : Embedding) : List Embedding → Except DimensionMismatch (List Binary32)
  | [] => .ok []
  | v :: vs => do
      let score ← query.similarity? v
      let scores ← similarities query vs
      .ok (score :: scores)

/-- The devices that have an embedding, each with the similarity of its most similar name. -/
def similarMatches (query : Embedding) :
    List EntityEntry → Except DimensionMismatch (List EntityMatch)
  | [] => .ok []
  | e :: es => do
      let scores ← similarities query e.embeddings
      let rest ← similarMatches query es
      .ok (match bestScore scores with
        | some score => ⟨e.entityId, score⟩ :: rest
        | none => rest)

def searchSimilar (x : EntityIndex) (query : Embedding) (domain areaId : Option String) (limit : Nat) :
    Except DimensionMismatch (List EntityMatch) :=
  (similarMatches query (x.candidates domain areaId)).map (ranked limit)

/-- The score of a name for a text, both in normal form, if one contains the other. -/
def overlapScore (text name : String) : Option Binary32 :=
  if name = "" then some .half
  else if Text.occursIn text name || Text.occursIn name text then
    some (Binary32.ofNat text.length / Binary32.ofNat name.length)
  else none

/-- The score of a device for a text in normal form; `bears` tells whether the text is a name of it. -/
def letterScore (text : String) (bears : Bool) (e : EntityEntry) : Option Binary32 :=
  let overlap := bestScore (e.normalNames.filterMap (overlapScore text))
  if bears then
    some (match overlap with
      | some score => Binary32.max score .one
      | none => .one)
  else overlap

def searchExact (x : EntityIndex) (q : Query) : List EntityMatch :=
  match Text.normalize? q.text with
  | none => []
  | some text =>
      let bearers := x.names.ids text
      ranked q.limit <| (x.candidates q.domain q.areaId).filterMap fun e =>
        (letterScore text (decide (e.entityId ∈ bearers)) e).map fun score => ⟨e.entityId, score⟩

/-- The ranking of a query in normal form that is not in the query cache. -/
def rank (e : Embedder) (q : Query) (x : EntityIndex) (s : Shared) :
    Except DimensionMismatch (List EntityMatch) × EntityIndex × Shared :=
  match e.embed q.text s with
  | (.ready v, s) =>
      (x.searchSimilar v q.domain q.areaId q.limit,
        { x with counters := { x.counters with semanticSearches := x.counters.semanticSearches + 1 } }, s)
  | (.unavailable _, s) =>
      (.ok (x.searchExact q),
        { x with counters := { x.counters with exactFallbacks := x.counters.exactFallbacks + 1 } }, s)

/-- The ranking of a query. A blank query finds nothing and is not counted. -/
def search (e : Embedder) (q : Query) (x : EntityIndex) (s : Shared) :
    Except DimensionMismatch (List EntityMatch) × EntityIndex × Shared :=
  match Text.normalize? q.text with
  | none => (.ok [], x, s)
  | some text =>
      let q := { q with text }
      let x := { x with counters := { x.counters with searches := x.counters.searches + 1 } }
      match QueryCache.getQuery x.queries s.now q.normal with
      | (some found, queries) =>
          (.ok found,
            { x with
              queries
              counters := { x.counters with queryCacheHits := x.counters.queryCacheHits + 1 } }, s)
      | (none, queries) =>
          match rank e q { x with queries } s with
          | (.ok found, x, s) =>
              (.ok found, { x with queries := QueryCache.putQuery x.queries s.now q.normal found }, s)
          | failed => failed

end EntityIndex

end DeviceNaming
