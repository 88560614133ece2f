import DeviceNaming.Area.Registry
import DeviceNaming.Text.Search

/-!
# Which area a text means

`AreaRegistry.resolve` finds the area that a text names, in three stages of which the first that finds one
wins: the name is registered; the embedding of the text is most similar to that of an area, and similar
enough; the text and a name of the area contain one another. `AreaRegistry.mentioned?` finds the first area
that a query mentions by one of its names, and gives the name of that area.
-/

namespace DeviceNaming

namespace AreaRegistry

/-- The area most similar to an embedding, with its similarity, among `best` and a list of areas. An area takes
the place of an earlier one only if it is more similar. -/
def mostSimilar (query : Embedding) (best : Option (Area × Binary32)) :
    List Area → Except DimensionMismatch (Option (Area × Binary32))
  | [] => .ok best
  | a :: areas =>
      match a.embedding with
      | none => mostSimilar query best areas
      | some v => do
          let score ← query.similarity? v
          let better := match best with
            | none => true
            | some (_, top) => Binary32.lt top score
          mostSimilar query (if better then some (a, score) else best) areas

/-- The area whose similarity to a text is above the threshold and above that of all others. -/
def resolveBySimilarity (e : Embedder) (g : AreaRegistry) (text : String) (s : Shared) :
    Except DimensionMismatch (Option String) × Shared :=
  match e.embed text s with
  | (.unavailable _, s) => (.ok none, s)
  | (.ready query, s) =>
      (do
        match ← mostSimilar query none g.ordered with
        | none => .ok none
        | some (a, score) => .ok (if Binary32.lt g.threshold score then some a.areaId else none), s)

/-- Does a name of the area contain the text, or the text it? Both are in normal form. -/
def overlaps (text : String) (a : Area) : Bool :=
  a.normalLabels.any fun label => Text.occursIn text label || Text.occursIn label text

/-- Does a name of the area occur in the text? Both are in normal form. -/
def mentionedIn (text : String) (a : Area) : Bool :=
  a.normalLabels.any fun label => Text.occursIn label text

def resolveByOverlap (g : AreaRegistry) (text : String) : Option String :=
  (g.ordered.find? (overlaps text)).map (·.areaId)

/-- The area that a text means; `semantic` allows the second stage. -/
def resolve (e : Embedder) (g : AreaRegistry) (text : String) (semantic : Bool) (s : Shared) :
    Except DimensionMismatch (Option String) × Shared :=
  match Text.normalize? text with
  | none => (.ok none, s)
  | some name =>
      match g.names.find? name with
      | some areaId => (.ok (some areaId), s)
      | none =>
          if semantic then
            match g.resolveBySimilarity e name s with
            | (.ok none, s) => (.ok (g.resolveByOverlap name), s)
            | found => found
          else (.ok (g.resolveByOverlap name), s)

/-- The name of the first area that a query mentions. -/
def mentioned? (g : AreaRegistry) (query : String) : Option String :=
  match Text.normalize? query with
  | none => none
  | some text => (g.ordered.find? (mentionedIn text)).map (·.name)

end AreaRegistry

end DeviceNaming
