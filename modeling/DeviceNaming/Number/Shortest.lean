import DeviceNaming.Number.Magnitude

/-!
# The fewest digits that read back

`Magnitude.shortest` selects, among the decimals that round to a magnitude, one with the fewest digits,
and of those the nearest. All comparisons are exact. A magnitude is rounded to by the decimals between
the halfway points to its neighbours, the ends included when `m` is even.
-/

namespace DeviceNaming

/-- The decimal `digits * 10 ^ exp`. -/
structure Decimal where
  digits : Nat
  exp : Int
deriving DecidableEq, Repr

/-- Which of two equally near decimals is taken. -/
inductive Tie where
  | upper
  | even
deriving DecidableEq, Repr

namespace Magnitude

/-- The least `k` from `k` on, in `fuel` steps, with `v < d * 10 ^ k`; here for `v < d`, downwards: the
number of zeros that follow the point. -/
def leadingZeros (v d : Nat) : Nat → Nat
  | 0 => 0
  | fuel + 1 => if v * 10 < d then 1 + leadingZeros (v * 10) d fuel else 0

/-- The number of decimal digits before the point; negative for zeros after it. -/
def scale (v d : Nat) : Int :=
  if d ≤ v then ((Nat.toDigits 10 (v / d)).length : Int) else -(leadingZeros v d 400 : Int)

/-- A decimal on the grid of step `10 ^ e` that rounds to the magnitude: `lo`, `v` and `hi` are the lower
halfway point, the value and the upper halfway point over the common denominator `d`. -/
def onGrid (tie : Tie) (closed : Bool) (lo v hi d : Nat) (e : Int) : Option Decimal :=
  let up := Nat.pow 10 (-e).toNat
  let step := d * Nat.pow 10 e.toNat
  let c := v * up / step
  let fitsLow := lo * up < c * step ∨ (closed = true ∧ lo * up = c * step)
  let fitsHigh := (c + 1) * step < hi * up ∨ (closed = true ∧ (c + 1) * step = hi * up)
  if fitsLow ∧ 0 < c then
    if fitsHigh then
      let twice := 2 * (v * up)
      let mid := (2 * c + 1) * step
      if twice < mid then some ⟨c, e⟩
      else if mid < twice then some ⟨c + 1, e⟩
      else match tie with
        | .upper => some ⟨c + 1, e⟩
        | .even => some ⟨if c % 2 = 0 then c else c + 1, e⟩
    else some ⟨c, e⟩
  else if fitsHigh then some ⟨c + 1, e⟩
  else none

/-- Moves the zeros at the end of the digits into the exponent. -/
def stripZeros : Nat → Decimal → Decimal
  | 0, x => x
  | fuel + 1, x =>
      if x.digits ≠ 0 ∧ x.digits % 10 = 0 then stripZeros fuel ⟨x.digits / 10, x.exp + 1⟩ else x

/-- The decimal with the fewest digits that rounds to a magnitude other than zero, and the nearest of
those. -/
def shortest (tie : Tie) (x : Magnitude) : Decimal :=
  let unit := Nat.pow 2 (x.q - 2).toNat
  let d := Nat.pow 2 (2 - x.q).toNat
  let lo := (if x.narrowBelow then 4 * x.m - 1 else 4 * x.m - 2) * unit
  let v := 4 * x.m * unit
  let hi := (4 * x.m + 2) * unit
  let k := scale v d
  let found := (List.range 17).findSome? fun n =>
    onGrid tie (x.m % 2 == 0) lo v hi d (k - (n + 1 : Nat))
  stripZeros 400 (found.getD ⟨v * Nat.pow 10 (2 - x.q).toNat / d, -((2 - x.q).toNat : Int)⟩)

end Magnitude

end DeviceNaming
