/-!
# Sets of code points

A Unicode property is kept as closed ranges of code points that ascend and lie apart.
`covers` looks a code point up and stops at the first range that begins above it.
-/

namespace DeviceNaming.Text

/-- Is the code point in one of the ranges? The ranges ascend. -/
def covers (n : Nat) : List (Nat × Nat) → Bool
  | [] => false
  | (lo, hi) :: rest => if n < lo then false else if n ≤ hi then true else covers n rest

end DeviceNaming.Text
