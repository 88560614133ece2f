import DeviceNaming.Number.Width
import DeviceNaming.Toml.DateTime
import DeviceNaming.Toml.Table
import DeviceNaming.Toml.Text

/-!
# Values of TOML

Strings, truth values, integers, numbers, dates, arrays and inline tables. Arrays and inline tables may lie in each
other up to `maxDepth`.
-/

namespace DeviceNaming.Toml

open Settings (Tree)
open Text (skipSpace)

/-- An integer, if it fits 64 bits with a sign. -/
def integer? (n : Int) : Option Tree :=
  if Width.fits n then some (.int n) else none

/-- The number that digits write in a base. -/
def natInBase (base : Nat) (ds : List Char) : Nat :=
  ds.foldl (fun n c => n * base + (hexValue? c).getD 0) 0

/-- An integer in a base other than ten, after its marker. -/
def based? (base : Nat) (s : List Char) : Option (Tree × List Char) :=
  match digitRun (fun c => match hexValue? c with
    | some v => decide (v < base)
    | none => false) s with
  | ([], _) => none
  | (ds, rest) => (integer? (natInBase base ds)).map (·, rest)

/-- The fraction of a number, if there is one. -/
def fraction? (s : List Char) : Option (List Char) × List Char :=
  match s with
  | '.' :: rest =>
      match digitRun Char.isDigit rest with
      | ([], _) => (none, s)
      | (ds, rest) => (some ds, rest)
  | _ => (none, s)

def exponent? (s : List Char) : Option Int × List Char :=
  match s with
  | e :: rest =>
      if e = 'e' ∨ e = 'E' then
        let (negative, ds) := Reading.sign rest
        match digitRun Char.isDigit ds with
        | ([], _) => (none, s)
        | (ds, rest) =>
            let n : Int := Reading.natOf ds
            (some (if negative then -n else n), rest)
      else (none, s)
  | [] => (none, s)

/-- An integer or a number in base ten. A number above all finite ones is refused. -/
def decimal? (negative : Bool) (s : List Char) : Option (Tree × List Char) :=
  match digitRun Char.isDigit s with
  | ([], _) => none
  | (ds, rest) =>
      if ds.length ≠ 1 ∧ ds.head? = some '0' then none
      else
        let (fraction, rest) := fraction? rest
        let (exponent, rest) := exponent? rest
        if fraction.isNone && exponent.isNone then
          let n : Int := Reading.natOf ds
          (integer? (if negative then -n else n)).map (·, rest)
        else
          let places := fraction.getD []
          let x := Reading.nearest (Reading.natOf (ds ++ places)) (exponent.getD 0 - places.length)
          if !negative && x.isInf then none else some (.float (if negative then -x else x), rest)

/-- An infinity, no number, an integer or a number, after its sign. -/
def signed? (negative : Bool) (s : List Char) : Option (Tree × List Char) :=
  match s with
  | 'i' :: 'n' :: 'f' :: rest =>
      some (.float (if negative then Float.ofBits 0xFFF0000000000000 else Float.ofBits 0x7FF0000000000000), rest)
  | 'n' :: 'a' :: 'n' :: rest => some (.float (Float.ofBits 0x7FF8000000000000), rest)
  | s => decimal? negative s

/-- A value that holds no other values. -/
def scalar? (s : List Char) : Option (Tree × List Char) :=
  match s with
  | 't' :: 'r' :: 'u' :: 'e' :: s => some (.bool true, s)
  | 'f' :: 'a' :: 'l' :: 's' :: 'e' :: s => some (.bool false, s)
  | '"' :: _ => (string? s).map fun (cs, s) => (.text (String.ofList cs), s)
  | '\'' :: _ => (string? s).map fun (cs, s) => (.text (String.ofList cs), s)
  | '0' :: 'x' :: s => based? 16 s
  | '0' :: 'o' :: s => based? 8 s
  | '0' :: 'b' :: s => based? 2 s
  | '+' :: s => signed? false s
  | '-' :: s => signed? true s
  | s =>
      match DateTime.read? s with
      | some (x, s) => some (.text x.text, s)
      | none => signed? false s

mutual

/-- A value, at most `room` arrays and inline tables deep. -/
def value? : (fuel room : Nat) → List Char → Option (Tree × List Char)
  | 0, _, _ => none
  | fuel + 1, room, '[' :: s =>
      if room = 0 then none
      else (items? fuel (room - 1) (skipLines s.length s)).map fun (xs, s) => (.list xs, s)
  | fuel + 1, room, '\x7b' :: s =>
      if room = 0 then none
      else
        match skipSpace s with
        | '\x7d' :: s => some (.table [], s)
        | s => (members? fuel (room - 1) [] s).map fun (es, s) => (.table (Node.entryTrees es), s)
  | _ + 1, _, s => scalar? s

/-- The items of an array up to its end. A comma may follow the last one. -/
def items? : (fuel room : Nat) → List Char → Option (List Tree × List Char)
  | 0, _, _ => none
  | _ + 1, _, ']' :: s => some ([], s)
  | fuel + 1, room, s => do
      let (v, s) ← value? fuel room s
      match skipLines s.length s with
      | ']' :: s => some ([v], s)
      | ',' :: s =>
          let (vs, s) ← items? fuel room (skipLines s.length s)
          some (v :: vs, s)
      | _ => none

/-- The members of an inline table up to its end. -/
def members? : (fuel room : Nat) → Entries → List Char → Option (Entries × List Char)
  | 0, _, _, _ => none
  | fuel + 1, room, es, s => do
      let (key, s) ← key? s
      let '=' :: s := skipSpace s | none
      let (v, s) ← value? fuel room (skipSpace s)
      let es ← Entries.insert v key es
      match skipSpace s with
      | '\x7d' :: s => some (es, s)
      | ',' :: s => members? fuel room es s
      | _ => none

end

end DeviceNaming.Toml
