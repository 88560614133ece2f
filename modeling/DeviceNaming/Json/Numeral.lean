import DeviceNaming.Json.Source
import DeviceNaming.Number.Width

/-!
# Numbers in a document

A numeral is kept as its digits, since a number that nobody reads may be of any size. `Numeral.read`
gives its value: a natural number below 2^64, a negative integer from -2^63 on, or a binary64 number.

A binary64 value is computed from the leading digits that fit 64 bits, multiplied or divided by a power
of ten; a result outside the range of binary64 is refused.
-/

namespace DeviceNaming.Json

/-- Why a document could not be read on: its text is over too early, or it is not well formed. -/
inductive Fault where
  | ended
  | malformed
deriving DecidableEq, Repr

structure Numeral where
  negative : Bool
  whole : List Nat
  /-- the digits after the point, if there is a point -/
  fraction : Option (List Nat)
  /-- the sign and the digits of the exponent, if there is one -/
  exponent : Option (Bool × List Nat)
deriving DecidableEq, Repr

inductive Number where
  | natural (n : Nat)
  /-- the integer `-n` -/
  | negative (n : Nat)
  | float (x : Float)
deriving Repr

namespace Numeral

/-- Appends digits to a significand as long as it stays below 2^64; the result counts the digits taken and
tells whether any were left. -/
def accumulate (significand : Nat) : List Nat → Nat × Nat × List Nat
  | [] => (significand, 0, [])
  | d :: ds =>
      if significand * 10 + d < Width.unsignedBound then
        let (s, taken, left) := accumulate (significand * 10 + d) ds
        (s, taken + 1, left)
      else (significand, 0, d :: ds)

/-- The value of the digits of an exponent, unless it exceeds 31 bits. -/
def exponentValue? (ds : List Nat) : Option Nat :=
  let n := ds.foldl (fun n d => if n < Width.shortBound then n * 10 + d else n) 0
  if n < Width.shortBound then some n else none

/-- The power of ten nearest to `10 ^ n`. -/
def powerOfTen (n : Nat) : Float := Float.ofScientific 1 false n

/-- `f * 10 ^ e` by multiplications and divisions in binary64; `none` when the value is out of range. -/
def scaled (f : Float) : (fuel : Nat) → (e : Int) → Option Float
  | 0, _ => some f
  | fuel + 1, e =>
      if e.natAbs ≤ 308 then
        if 0 ≤ e then
          let r := f * powerOfTen e.natAbs
          if r.isInf then none else some r
        else some (f / powerOfTen e.natAbs)
      else if f == 0.0 then some f
      else if 0 ≤ e then none
      else scaled (f / powerOfTen 308) fuel (e + 308)

/-- The binary64 value `significand * 10 ^ e` with its sign. -/
def float (negative : Bool) (significand : Nat) (e : Int) : Except Fault Number :=
  match scaled (Float.ofNat significand) 8 e with
  | some f => .ok (.float (if negative then -f else f))
  | none => .error .malformed

/-- An integer without a point and without an exponent. Zero with a sign is a binary64 number. -/
def integer (negative : Bool) (n : Nat) : Number :=
  if !negative then .natural n
  else if n = 0 ∨ Width.signedBound < n then .float (-(Float.ofNat n))
  else .negative n

def read (x : Numeral) : Except Fault Number :=
  let (whole, _, left) := accumulate 0 x.whole
  if left.isEmpty && x.fraction.isNone && x.exponent.isNone then .ok (integer x.negative whole)
  else
    let (significand, taken, _) := accumulate whole (x.fraction.getD [])
    let start : Int := (left.length : Int) - taken
    match x.exponent with
    | none => float x.negative significand start
    | some (minus, ds) =>
        match exponentValue? ds with
        | some e => float x.negative significand (if minus then start - e else start + e)
        | none =>
            if significand ≠ 0 && !minus then .error .malformed
            else .ok (.float (if x.negative then -0.0 else 0.0))

end Numeral

end DeviceNaming.Json
