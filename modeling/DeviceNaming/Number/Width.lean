/-!
# Integers of a fixed width

The ranges of integers of 64 bits, with a sign and without, and of exponents.
-/

namespace DeviceNaming.Width

/-- The naturals below it fit 64 bits with a sign: `2 ^ 63`. -/
def signedBound : Nat := 9223372036854775808

/-- The naturals below it fit 64 bits without a sign: `2 ^ 64`. -/
def unsignedBound : Nat := 18446744073709551616

/-- The naturals below it fit 32 bits with a sign: `2 ^ 31`. -/
def shortBound : Nat := 2147483648

/-- Does an integer fit 64 bits with a sign? -/
def fits (n : Int) : Bool := decide (-(signedBound : Int) ≤ n) && decide (n < (signedBound : Int))

end DeviceNaming.Width
