import DeviceNaming.Json.Draft
import DeviceNaming.Number.Width
import DeviceNaming.Order.Roster
import DeviceNaming.Text.Lowercase

/-!
# Trees of settings

Settings come in layers, and each layer is a tree of values under names. `Tree.merge` lays a value over a tree
under a name in lowercase: tables are merged entry by entry, anything else replaces what was there. `Tree.ofDraft?`
reads a document as such a tree.
-/

namespace DeviceNaming.Settings

/-- A value in a layer of settings. -/
inductive Tree where
  | null
  | bool (b : Bool)
  | int (n : Int)
  | float (x : Float)
  | text (s : String)
  | list (items : List Tree)
  | table (entries : List (String × Tree))

namespace Tree

/-- The entries of a table; anything else has none. -/
def entries : Tree → List (String × Tree)
  | table es => es
  | _ => []

/-- The name under which a value is kept. -/
def nameOf (key : String) : String := String.ofList (Text.lowercase key.toList)

mutual

/-- Lays a value over a tree under a name. A table is laid over what is there entry by entry. -/
def merge (key : String) : Tree → Tree → Tree
  | .table incoming, root =>
      let es := root.entries
      let target := (es.lookup (nameOf key)).getD (.table [])
      .table (Roster.putItems (nameOf key) (mergeAll incoming target) es)
  | v, root => .table (Roster.putItems (nameOf key) v root.entries)

/-- Lays entries over a tree one after the other. -/
def mergeAll : List (String × Tree) → Tree → Tree
  | [], root => root
  | (key, v) :: rest, root => mergeAll rest (merge key v root)

end

mutual

/-- Reads a document as a tree, at most `room` lists and objects deep. Of members of one name the last
counts; an integer from 2^63 on is a binary64 number. -/
def ofDraft? (room : Nat) : Json.Draft → Option Tree
  | .null => some .null
  | .bool b => some (.bool b)
  | .number n =>
      match n.read with
      | .ok (.natural v) => some (if v < Width.signedBound then .int v else .float (Float.ofNat v))
      | .ok (.negative v) => some (.int (-(v : Int)))
      | .ok (.float x) => some (.float x)
      | .error _ => none
  | .text (.ok s) => some (.text s)
  | .text (.error _) => none
  | .array items .closed => if room = 0 then none else (ofItems? (room - 1) items).map .list
  | .object members .closed => if room = 0 then none else (ofMembers? (room - 1) members []).map .table
  | .array _ (.broken ..) => none
  | .object _ (.broken ..) => none
  | .broken .. => none

/-- Reads the items of a list. -/
def ofItems? (room : Nat) : List Json.Draft → Option (List Tree)
  | [] => some []
  | x :: xs => do
      let v ← ofDraft? room x
      let vs ← ofItems? room xs
      some (v :: vs)

/-- Reads the members of an object onto entries. -/
def ofMembers? (room : Nat) :
    List (Except Json.Fault String × Json.Draft) → List (String × Tree) → Option (List (String × Tree))
  | [], es => some es
  | (.error _, _) :: _, _ => none
  | (.ok key, x) :: members, es => do
      let v ← ofDraft? room x
      ofMembers? room members (Roster.putItems key v es)

end

/-- How deep lists and objects may lie in each other. -/
def maxDepth : Nat := 127

/-- Reads the text of a document as a table. -/
def ofDocument? (text : String) : Option (List (String × Tree)) :=
  let (draft, rest) := Json.Draft.ofTokens (Json.tokens (Json.Source.ofText text))
  match ofDraft? maxDepth draft, rest with
  | some (.table es), [] => some es
  | _, _ => none

end Tree

end DeviceNaming.Settings
