import DeviceNaming.Number.Shortest

/-!
# Decimal numbers in text

How numbers are written. `plain` never uses an exponent: settings and their error messages are written
so. `withExponent` writes numbers of a moderate size positionally, always with a point, and all others
with a signed exponent: messages about a wrong number in a document are written so.
-/

namespace DeviceNaming

namespace Decimal

/-- The digits of the decimal as characters. -/
def chars (x : Decimal) : List Char := Nat.toDigits 10 x.digits

/-- The exponent of the leading digit. -/
def leading (x : Decimal) : Int := (x.chars.length : Int) - 1 + x.exp

/-- The digits with the point in its place; a whole number ends in `whole`. -/
def positional (whole : List Char) (x : Decimal) : List Char :=
  let ds := x.chars
  if 0 ≤ x.exp then ds ++ List.replicate x.exp.toNat '0' ++ whole
  else
    let places := (-x.exp).toNat
    if places < ds.length then ds.take (ds.length - places) ++ '.' :: ds.drop (ds.length - places)
    else '0' :: '.' :: List.replicate (places - ds.length) '0' ++ ds

/-- The exponent as it is written: a sign and the fewest digits. -/
def exponentChars (e : Int) : List Char :=
  (if e < 0 then '-' else '+') :: Nat.toDigits 10 e.natAbs

/-- One digit, the point and the other digits, then the exponent. -/
def scientific (x : Decimal) : List Char :=
  let fraction := match x.chars with
    | [] => []
    | [d] => [d]
    | d :: ds => d :: '.' :: ds
  fraction ++ 'e' :: exponentChars x.leading

end Decimal

/-- A number by its fewest digits, without an exponent; whole numbers have no point. -/
def plainChars (negative isNaN isInf : Bool) (x : Magnitude) : List Char :=
  if isNaN then ['N', 'a', 'N']
  else
    (if negative then ['-'] else []) ++
      (if isInf then ['i', 'n', 'f']
       else if x.m = 0 then ['0']
       else (x.shortest .upper).positional [])

/-- A binary32 number by its fewest digits, without an exponent. -/
def Binary32.plain (x : Binary32) : String :=
  String.ofList (plainChars x.signBit x.isNaN x.isInf (Magnitude.ofBinary32 x))

/-- A binary64 number by its fewest digits, without an exponent. -/
def plainFloat (x : Float) : String :=
  String.ofList (plainChars (signBit x) x.isNaN x.isInf (Magnitude.ofFloat x))

/-- A finite binary64 number by its fewest digits: positionally, with a point, from `1e-5` up to below
`1e16`, and otherwise with an exponent. -/
def floatWithExponent (x : Float) : String :=
  let magnitude := Magnitude.ofFloat x
  let digits :=
    if magnitude.m = 0 then ['0', '.', '0']
    else
      let d := magnitude.shortest .even
      if -5 ≤ d.leading ∧ d.leading ≤ 15 then d.positional ['.', '0'] else d.scientific
  String.ofList ((if signBit x then ['-'] else []) ++ digits)

end DeviceNaming
