import DeviceNaming.Toml.Value

/-!
# Files of TOML

`Toml.parse?` reads a file line by line: blank lines and comments, headers of tables and of lists of tables, and
keys with their values. A malformed line, a key or a table that is there already, an integer beyond 64 bits and
values too deep in each other spoil the whole file.
-/

namespace DeviceNaming.Toml

open Settings (Tree)
open Text (skipSpace)

/-- Reads the lines of a file. `header` is the path of the table that is open. -/
def lines? : (fuel : Nat) → (header : List String) → Entries → List Char → Option Entries
  | 0, _, _, _ => none
  | fuel + 1, header, es, s =>
      match skipLines s.length s with
      | [] => some es
      | '[' :: '[' :: s => do
          let (key, s) ← key? s
          let ']' :: ']' :: s := skipSpace s | none
          let s ← lineEnd? s
          let es ← Entries.openRow key es
          lines? fuel key es s
      | '[' :: s => do
          let (key, s) ← key? s
          let ']' :: s := skipSpace s | none
          let s ← lineEnd? s
          let es ← Entries.openTable key es
          lines? fuel key es s
      | s => do
          let (key, s) ← key? s
          let '=' :: s := skipSpace s | none
          let s := skipSpace s
          let (v, s) ← value? (2 * s.length + 2) maxDepth s
          let s ← lineEnd? s
          let es ← Entries.insertUnder v key header es
          lines? fuel header es s

/-- The entries of the table that a file describes. A byte order mark may open the file. -/
def parse? (text : String) : Option (List (String × Tree)) :=
  let s := match text.toList with
    | '\ufeff' :: s => s
    | s => s
  (lines? (s.length + 1) [] [] s).map Node.entryTrees

end DeviceNaming.Toml
