import DeviceNaming.Settings.Tree

/-!
# Tables of TOML

The tables of a file while it is read. A table remembers how it came to be, since a table may be opened
only once: under a header, by dotted keys, or by standing in the path of another header, in
which case its own header may still follow.
-/

namespace DeviceNaming.Toml

open Settings (Tree)

/-- How a table came to be. -/
inductive Origin where
  /-- by its own header -/
  | header
  /-- in the path of the header of another table -/
  | passing
  /-- in the path of a dotted key -/
  | dotted
deriving DecidableEq, Repr

/-- What stands under a name. -/
inductive Node where
  | leaf (v : Tree)
  | table (origin : Origin) (entries : List (String × Node))
  | tables (rows : List (List (String × Node)))

/-- What stands under the names of a table. -/
abbrev Entries := List (String × Node)

namespace Node

mutual

def tree : Node → Tree
  | leaf v => v
  | table _ es => .table (entryTrees es)
  | tables rows => .list (rowTrees rows)

def entryTrees : List (String × Node) → List (String × Tree)
  | [] => []
  | (k, n) :: es => (k, tree n) :: entryTrees es

def rowTrees : List (List (String × Node)) → List Tree
  | [] => []
  | es :: rows => .table (entryTrees es) :: rowTrees rows

end

end Node

namespace Entries

/-- Changes the last of some tables. -/
def changeLast (f : Entries → Option Entries) : List Entries → Option (List Entries)
  | [] => none
  | [es] => (f es).map fun es => [es]
  | es :: rows => (changeLast f rows).map (es :: ·)

/-- Writes a value under a dotted key. The tables on the way are made or are such that a dotted key made; the
last part of the key must be new. -/
def insert (v : Tree) : List String → Entries → Option Entries
  | [], _ => none
  | [k], es => if (es.lookup k).isSome then none else some (es ++ [(k, .leaf v)])
  | k :: keys, es =>
      match es.lookup k with
      | none => (insert v keys []).map fun sub => es ++ [(k, .table .dotted sub)]
      | some (.table .dotted sub) =>
          (insert v keys sub).map fun sub => Roster.putItems k (.table .dotted sub) es
      | some (.table .passing sub) =>
          match keys with
          | [_] => none
          | keys => (insert v keys sub).map fun sub => Roster.putItems k (.table .passing sub) es
      | some (.tables rows) =>
          match keys with
          | [_] => none
          | keys => (changeLast (insert v keys) rows).map fun rows => Roster.putItems k (.tables rows) es
      | some _ => none

/-- Changes the table that a header names, by `f` on the entries of the table that holds it. The tables on the way
are made as needed. -/
def descend (f : String → Entries → Option Entries) : List String → Entries → Option Entries
  | [], _ => none
  | [k], es => f k es
  | k :: keys, es =>
      match es.lookup k with
      | none => (descend f keys []).map fun sub => es ++ [(k, .table .passing sub)]
      | some (.table o sub) => (descend f keys sub).map fun sub => Roster.putItems k (.table o sub) es
      | some (.tables rows) => (changeLast (descend f keys) rows).map fun rows => Roster.putItems k (.tables rows) es
      | some (.leaf _) => none

/-- Opens the table of a header. -/
def openTable : List String → Entries → Option Entries :=
  descend fun k es =>
    match es.lookup k with
    | none => some (es ++ [(k, .table .header [])])
    | some (.table .passing sub) => some (Roster.putItems k (.table .header sub) es)
    | some _ => none

/-- Opens another table of a list of tables. -/
def openRow : List String → Entries → Option Entries :=
  descend fun k es =>
    match es.lookup k with
    | none => some (es ++ [(k, .tables [[]])])
    | some (.tables rows) => some (Roster.putItems k (.tables (rows ++ [[]])) es)
    | some _ => none

/-- Writes a value under a key in the table that a header opened. -/
def insertUnder (v : Tree) (key : List String) : (header : List String) → Entries → Option Entries
  | [], es => insert v key es
  | header, es =>
      descend (fun k es =>
        match es.lookup k with
        | some (.table o sub) => (insert v key sub).map fun sub => Roster.putItems k (.table o sub) es
        | some (.tables rows) => (changeLast (insert v key) rows).map fun rows => Roster.putItems k (.tables rows) es
        | _ => none) header es

end Entries

end DeviceNaming.Toml
