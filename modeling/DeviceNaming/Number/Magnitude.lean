import DeviceNaming.Number.Binary32

/-!
# Exact magnitudes

A finite floating-point number is a sign and a magnitude `m * 2 ^ q`. This module reads both out of
the bits of the two widths in use and, from the exact magnitude, rounds a binary64 number to a natural
number and to binary32.
-/

namespace DeviceNaming

/-- A finite magnitude `m * 2 ^ q`. -/
structure Magnitude where
  m : Nat
  q : Int
  /-- the gap to the number below is half the gap to the number above -/
  narrowBelow : Bool

namespace Magnitude

/-- The magnitude with the biased exponent `e` and the fraction `f` of a format with `width` fraction bits
whose least exponent is `least`. -/
def ofFields (width : Nat) (least : Int) (e f : Nat) : Magnitude :=
  if e = 0 then ⟨f, least, false⟩ else ⟨Nat.pow 2 width + f, least + (e : Int) - 1, f == 0 && decide (1 < e)⟩

def ofFloat (x : Float) : Magnitude :=
  let b := x.toBits
  ofFields 52 (-1074) ((b >>> 52) &&& 0x7FF).toNat (b &&& 0xFFFFFFFFFFFFF).toNat

def ofBinary32 (x : Binary32) : Magnitude :=
  ofFields 23 (-149) ((x.bits >>> 23) &&& 0xFF).toNat (x.bits &&& 0x7FFFFF).toNat

/-- The nearest natural number; a half goes up. -/
def round (x : Magnitude) : Nat :=
  if 0 ≤ x.q then x.m * Nat.pow 2 x.q.toNat
  else (2 * x.m + Nat.pow 2 (-x.q).toNat) / (2 * Nat.pow 2 (-x.q).toNat)

/-- The nearest binary32 number; a tie goes to the even neighbour. -/
def toFloat32 (x : Magnitude) : Float32 :=
  if 0 ≤ x.q then Float32.ofScientific (x.m * Nat.pow 2 x.q.toNat) false 0
  else Float32.ofScientific (x.m * Nat.pow 5 (-x.q).toNat) true (-x.q).toNat

end Magnitude

def signBit (x : Float) : Bool := decide (x.toBits ≥ 0x8000000000000000)

def Binary32.ofFloat (x : Float) : Binary32 :=
  let sign : UInt32 := if signBit x then 0x80000000 else 0
  if x.isNaN then ⟨sign ||| 0x7FC00000⟩
  else if x.isInf then ⟨sign ||| 0x7F800000⟩
  else ⟨sign ||| (Magnitude.ofFloat x).toFloat32.toBits⟩

def Binary32.signBit (x : Binary32) : Bool := decide (x.bits ≥ 0x80000000)

def Binary32.isInf (x : Binary32) : Bool := (x.bits &&& 0x7FFFFFFF) == 0x7F800000

end DeviceNaming
