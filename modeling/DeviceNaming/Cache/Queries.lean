import DeviceNaming.Cache.Embeddings

/-!
# The query cache

Keeps whole rankings under everything that shapes them: the normal form of the query, the filters and
the limit. A blank query has no entry, and looking one up is not counted.
-/

namespace DeviceNaming

/-- A device found by a search, with its score. -/
structure EntityMatch where
  entityId : String
  score : Binary32
deriving DecidableEq, Repr

/-- What is searched for: a text, the filters, and how many matches are wanted. -/
structure Query where
  text : String
  domain : Option String
  areaId : Option String
  limit : Nat
deriving DecidableEq, Repr

def Query.normal (q : Query) : Query := { q with text := Text.normalize q.text }

/-- Rankings by their query in normal form. -/
abbrev QueryCache := BoundedCache Query (List EntityMatch)

namespace QueryCache

def getQuery (c : QueryCache) (now : Nat) (q : Query) : Option (List EntityMatch) × QueryCache :=
  if q.text = "" then (none, c) else c.get now q

def putQuery (c : QueryCache) (now : Nat) (q : Query) (matches_ : List EntityMatch) : QueryCache :=
  if q.text = "" then c else c.put now q matches_

/-- An empty cache of the same bounds. -/
def emptyLike (c : QueryCache) : QueryCache := .empty c.maxSize c.ttl

end QueryCache

end DeviceNaming
