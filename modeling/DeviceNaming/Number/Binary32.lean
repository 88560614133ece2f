/-!
# Binary32 numbers

Scores, thresholds and the components of embeddings are IEEE binary32 numbers kept by their bits, so
that equal bits mean equal numbers and a result that is no number keeps its sign. Each operation
rounds once. An operand that is no number passes through, the first one if both are none; an
operation without a result gives `invalid`.

`rank` orders all bit patterns: it agrees with `<` on numbers, puts `-0.0` below `0.0`, and the
patterns that are no numbers outside the infinities, on the side of their sign.
-/

namespace DeviceNaming

/-- A binary32 number, by its bits. -/
structure Binary32 where
  bits : UInt32
deriving DecidableEq, Inhabited, Repr

namespace Binary32

def value (x : Binary32) : Float32 := Float32.ofBits x.bits

/-- Is this the pattern of no number? -/
def isNaN (x : Binary32) : Bool := decide (0x7F800000 < x.bits &&& 0x7FFFFFFF)

/-- The result of an operation that has none. -/
def invalid : Binary32 := ⟨0xFFC00000⟩

/-- An operand that is no number, as it is passed on. -/
def quiet (x : Binary32) : Binary32 := ⟨x.bits ||| 0x00400000⟩

/-- A computed value. -/
def ofValue (r : Float32) : Binary32 := if r.isNaN then invalid else ⟨r.toBits⟩

/-- Applies a binary operation. -/
def lift (op : Float32 → Float32 → Float32) (a b : Binary32) : Binary32 :=
  if a.isNaN then a.quiet else if b.isNaN then b.quiet else ofValue (op a.value b.value)

instance : Add Binary32 := ⟨lift (· + ·)⟩
instance : Mul Binary32 := ⟨lift (· * ·)⟩
instance : Div Binary32 := ⟨lift (· / ·)⟩

def sqrt (a : Binary32) : Binary32 := if a.isNaN then a.quiet else ofValue a.value.sqrt

def zero : Binary32 := ⟨0⟩
def one : Binary32 := ⟨0x3F800000⟩
def half : Binary32 := ⟨0x3F000000⟩

/-- A count, rounded to nearest. -/
def ofNat (n : Nat) : Binary32 := ofValue (Float32.ofNat n)

/-- `a < b` as numbers; what is no number is below and above nothing. -/
def lt (a b : Binary32) : Bool := decide (a.value < b.value)

def le (a b : Binary32) : Bool := decide (a.value ≤ b.value)

/-- Equality as numbers: `0.0` equals `-0.0`, and what is no number equals nothing. -/
def same (a b : Binary32) : Bool := a.value == b.value

/-- The larger number; the second on a tie, and the other one if one is no number. -/
def max (a b : Binary32) : Binary32 :=
  if a.isNaN then b else if le a b then b else a

/-- The place of a bit pattern in the order of all bit patterns. -/
def rank (a : Binary32) : Int :=
  if a.bits < 0x80000000 then a.bits.toNat else 2147483647 - (a.bits.toNat : Int)

end Binary32

end DeviceNaming
