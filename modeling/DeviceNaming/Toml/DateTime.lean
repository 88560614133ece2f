import DeviceNaming.Number.Reading

/-!
# Dates and times of TOML

A date, a time of day, or both, and then perhaps how far the clock is from universal time. No setting is a
date: one that is written is kept as the text that `DateTime.text` gives it, in which the two halves are joined
by `T` and the fraction of a second has at most nine digits and ends in no zero.
-/

namespace DeviceNaming.Toml

structure Date where
  year : Nat
  month : Nat
  day : Nat
deriving DecidableEq, Repr

structure TimeOfDay where
  hour : Nat
  minute : Nat
  second : Nat
  nanosecond : Nat
deriving DecidableEq, Repr

/-- How far a clock is from universal time. -/
inductive Offset where
  | universal
  | minutes (n : Int)
deriving DecidableEq, Repr

/-- A date, a time, or both. -/
inductive DateTime where
  | date (d : Date)
  | time (t : TimeOfDay)
  | moment (d : Date) (t : TimeOfDay) (offset : Option Offset)
deriving DecidableEq, Repr

/-- A number of just `n` digits. -/
def fixedNat? (n : Nat) (s : List Char) : Option (Nat × List Char) :=
  let ds := s.take n
  if ds.length = n ∧ ds.all Char.isDigit then some (Reading.natOf ds, s.drop n) else none

/-- The digits of a number, with zeros before them up to a width. -/
def padded (width n : Nat) : List Char :=
  let ds := Nat.toDigits 10 n
  List.replicate (width - ds.length) '0' ++ ds

namespace Date

/-- Has the year a 29th of February? -/
def isLeap (year : Nat) : Bool := year % 4 == 0 && (year % 100 != 0 || year % 400 == 0)

/-- The number of days of a month. -/
def daysIn (year month : Nat) : Nat :=
  if month = 2 then (if isLeap year then 29 else 28)
  else if month = 4 ∨ month = 6 ∨ month = 9 ∨ month = 11 then 30
  else 31

def valid (d : Date) : Bool :=
  decide (1 ≤ d.month) && decide (d.month ≤ 12) && decide (1 ≤ d.day) && decide (d.day ≤ daysIn d.year d.month)

def read? (s : List Char) : Option (Date × List Char) := do
  let (year, s) ← fixedNat? 4 s
  let '-' :: s := s | none
  let (month, s) ← fixedNat? 2 s
  let '-' :: s := s | none
  let (day, s) ← fixedNat? 2 s
  let d : Date := ⟨year, month, day⟩
  if d.valid then some (d, s) else none

def chars (d : Date) : List Char := padded 4 d.year ++ '-' :: padded 2 d.month ++ '-' :: padded 2 d.day

end Date

namespace TimeOfDay

/-- Is the time on the clock? A minute may end in a leap second. -/
def valid (t : TimeOfDay) : Bool := decide (t.hour ≤ 23) && decide (t.minute ≤ 59) && decide (t.second ≤ 60)

/-- The fraction of a second, in nanoseconds; digits beyond them are dropped. -/
def fraction (s : List Char) : Nat × List Char :=
  match s with
  | '.' :: rest =>
      match rest.takeWhile Char.isDigit with
      | [] => (0, s)
      | ds => (Reading.natOf ((ds ++ List.replicate 9 '0').take 9), rest.dropWhile Char.isDigit)
  | _ => (0, s)

def read? (s : List Char) : Option (TimeOfDay × List Char) := do
  let (hour, s) ← fixedNat? 2 s
  let ':' :: s := s | none
  let (minute, s) ← fixedNat? 2 s
  let ':' :: s := s | none
  let (second, s) ← fixedNat? 2 s
  let (nanosecond, s) := fraction s
  let t : TimeOfDay := ⟨hour, minute, second, nanosecond⟩
  if t.valid then some (t, s) else none

def chars (t : TimeOfDay) : List Char :=
  let whole := padded 2 t.hour ++ ':' :: padded 2 t.minute ++ ':' :: padded 2 t.second
  if t.nanosecond = 0 then whole
  else whole ++ '.' :: ((padded 9 t.nanosecond).reverse.dropWhile fun c => c = '0').reverse

end TimeOfDay

namespace Offset

/-- Hours and minutes after a sign. -/
def signed? (negative : Bool) (s : List Char) : Option (Offset × List Char) := do
  let (hour, s) ← fixedNat? 2 s
  let ':' :: s := s | none
  let (minute, s) ← fixedNat? 2 s
  let n : Int := hour * 60 + minute
  if hour ≤ 23 ∧ minute ≤ 59 then some (.minutes (if negative then -n else n), s) else none

/-- An offset, if there is one. A sign that starts none spoils the value. -/
def read? (s : List Char) : Option (Option Offset × List Char) :=
  match s with
  | 'Z' :: s => some (some .universal, s)
  | 'z' :: s => some (some .universal, s)
  | '+' :: s => (signed? false s).map fun (o, s) => (some o, s)
  | '-' :: s => (signed? true s).map fun (o, s) => (some o, s)
  | s => some (none, s)

def chars : Offset → List Char
  | universal => ['Z']
  | minutes n => (if n < 0 then '-' else '+') :: padded 2 (n.natAbs / 60) ++ ':' :: padded 2 (n.natAbs % 60)

end Offset

namespace DateTime

/-- The time that follows a date: after `T` or one space. -/
def timeAfterDate? : List Char → Option (TimeOfDay × List Char)
  | 'T' :: s => TimeOfDay.read? s
  | 't' :: s => TimeOfDay.read? s
  | ' ' :: s => TimeOfDay.read? s
  | _ => none

def read? (s : List Char) : Option (DateTime × List Char) :=
  match Date.read? s with
  | some (d, s) =>
      match timeAfterDate? s with
      | some (t, s) => (Offset.read? s).map fun (o, s) => (.moment d t o, s)
      | none => some (.date d, s)
  | none => (TimeOfDay.read? s).map fun (t, s) => (.time t, s)

def chars : DateTime → List Char
  | date d => d.chars
  | time t => t.chars
  | moment d t o => d.chars ++ 'T' :: t.chars ++ (o.map Offset.chars).getD []

def text (x : DateTime) : String := String.ofList x.chars

end DateTime

end DeviceNaming.Toml
