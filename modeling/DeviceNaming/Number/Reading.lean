import DeviceNaming.Number.Magnitude

/-!
# Reading numbers

Numbers as they are written in settings: integers with an optional sign, and decimal numbers with an optional
point and exponent, or one of the words for infinity and for no number. Decimal numbers are rounded to the
nearest binary64 number.
-/

namespace DeviceNaming.Reading

/-- The number that decimal digits write. -/
def natOf (digits : List Char) : Nat := digits.foldl (fun n c => n * 10 + (c.toNat - '0'.toNat)) 0

/-- A non-empty run of decimal digits. -/
def nat? (s : List Char) : Option Nat :=
  if s.isEmpty || !s.all Char.isDigit then none else some (natOf s)

/-- Splits a sign off; a text without one is positive. -/
def sign : List Char → Bool × List Char
  | '-' :: s => (true, s)
  | '+' :: s => (false, s)
  | s => (false, s)

def int? (s : List Char) : Option Int :=
  let (negative, ds) := sign s
  (nat? ds).map fun n => if negative then -(n : Int) else n

/-- The binary64 number nearest to `digits * 10 ^ e`. Exponents far out of range are settled first. -/
def nearest (digits : Nat) (e : Int) : Float :=
  let size : Int := (Nat.toDigits 10 digits).length
  if digits = 0 || decide (size + e < -400) then 0.0
  else if 400 < size + e then Float.ofBits 0x7FF0000000000000
  else if 0 ≤ e then Float.ofScientific digits false e.toNat
  else Float.ofScientific digits true (-e).toNat

/-- The exponent at the end of a number; none is zero. -/
def exponent? : List Char → Option Int
  | [] => some 0
  | c :: s => if c = 'e' ∨ c = 'E' then int? s else none

/-- A decimal number without a sign: digits with at most one point, at least one of them, and perhaps an
exponent. -/
def decimal? (s : List Char) : Option Float :=
  let whole := s.takeWhile Char.isDigit
  let rest := s.dropWhile Char.isDigit
  let (fraction, rest) := match rest with
    | '.' :: rest => (rest.takeWhile Char.isDigit, rest.dropWhile Char.isDigit)
    | rest => ([], rest)
  if whole.isEmpty && fraction.isEmpty then none
  else (exponent? rest).map fun e => nearest (natOf (whole ++ fraction)) (e - fraction.length)

/-- A binary64 number: a decimal number or a word, with an optional sign. -/
def float? (s : List Char) : Option Float :=
  let (negative, s) := sign s
  let word := s.map Char.toLower
  let value :=
    if word = ['i', 'n', 'f'] ∨ word = ['i', 'n', 'f', 'i', 'n', 'i', 't', 'y'] then
      some (Float.ofBits 0x7FF0000000000000)
    else if word = ['n', 'a', 'n'] then some (Float.ofBits 0x7FF8000000000000)
    else decimal? s
  value.map fun x => if negative then -x else x

end DeviceNaming.Reading
