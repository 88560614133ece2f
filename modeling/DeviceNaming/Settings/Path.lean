import DeviceNaming.Number.Reading
import DeviceNaming.Settings.Tree
import DeviceNaming.Text.Blank

/-!
# Paths into trees of settings

The names at the top of a layer may be paths: names joined by dots, and positions in brackets, which count from
the end of a list when they are negative. A name that is no path stands for itself. `Tree.lay` lays a value over
a tree under such a name and makes the tables and lists on the way, the lists long enough for the positions.
-/

namespace DeviceNaming.Settings

open Text (skipSpace)

/-- A step into a tree. -/
inductive PathStep where
  | child (name : String)
  | item (index : Int)
deriving DecidableEq, Repr

/-- Is the character one of which names in paths are made? -/
def isNameChar (c : Char) : Bool := c.isAlphanum || c = '_' || c = '-' || c = ' '

/-- A position and its closing bracket. It fits 64 bits and may be surrounded by spaces. -/
def position? (s : List Char) : Option (Int × List Char) :=
  let (negative, s) := match skipSpace s with
    | '-' :: s => (true, s)
    | s => (false, s)
  match Reading.nat? (s.takeWhile Char.isDigit), skipSpace (s.dropWhile Char.isDigit) with
  | some n, ']' :: s =>
      let i : Int := if negative then -(n : Int) else n
      if Width.fits i then some (i, s) else none
  | _, _ => none

/-- The steps after the first name of a path, in at most `fuel` steps. -/
def pathSteps? : (fuel : Nat) → List Char → Option (List PathStep)
  | _, [] => some []
  | 0, _ => none
  | fuel + 1, '.' :: s =>
      let name := s.takeWhile isNameChar
      if name.isEmpty then none
      else (pathSteps? fuel (s.dropWhile isNameChar)).map (.child (String.ofList name) :: ·)
  | fuel + 1, '[' :: s =>
      match position? s with
      | some (i, s) => (pathSteps? fuel s).map (.item i :: ·)
      | none => none
  | _ + 1, _ => none

/-- The steps of a path, unless the name is none. -/
def path? (key : String) : Option (List PathStep) :=
  let s := key.toList
  let name := s.takeWhile isNameChar
  if name.isEmpty then none
  else (pathSteps? s.length (s.dropWhile isNameChar)).map (.child (String.ofList name) :: ·)

namespace Tree

/-- The items of a list; anything else has none. -/
def items : Tree → List Tree
  | list xs => xs
  | _ => []

/-- The list made long enough for a position by nulls, and the position counted from its start. A position before
the start lengthens the list there. -/
def reaching (i : Int) (xs : List Tree) : List Tree × Nat :=
  let n := i.natAbs
  if 0 ≤ i then (xs ++ List.replicate (n + 1 - xs.length) .null, n)
  else (List.replicate (n - xs.length) .null ++ xs, xs.length - n)

/-- Lays a value over a tree at the end of a path. A name on the way makes a table of what is there, a position a
list. -/
def layAt (v : Tree) : List PathStep → Tree → Tree
  | [], root => root
  | [.child key], root => merge key v root
  | [.item i], root =>
      let (xs, n) := reaching i root.items
      .list (xs.set n v)
  | .child key :: steps, root =>
      let es := root.entries
      .table (Roster.putItems (nameOf key) (layAt v steps ((es.lookup (nameOf key)).getD .null)) es)
  | .item i :: steps, root =>
      let (xs, n) := reaching i root.items
      .list (xs.set n (layAt v steps (xs[n]?.getD .null)))

/-- Lays a value over a tree under a name that may be a path. -/
def lay (key : String) (v root : Tree) : Tree :=
  match path? key with
  | some steps => layAt v steps root
  | none => merge key v root

/-- Lays the entries of a layer over a tree. -/
def layAll (layer : List (String × Tree)) (root : Tree) : Tree :=
  layer.foldl (fun t (key, v) => lay key v t) root

end Tree

end DeviceNaming.Settings
