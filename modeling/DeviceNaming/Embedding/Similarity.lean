import DeviceNaming.Number.Binary32

/-!
# Similarity of embeddings

An embedding is a list of binary32 numbers. `cosine` is the cosine of the angle between two embeddings of the
same dimension, computed component by component from the left; an embedding of norm zero is similar to
nothing. Embeddings of different dimensions have no similarity, and comparing them is an error of its own.
-/

namespace DeviceNaming

/-- The embedding of a text. -/
abbrev Embedding := List Binary32

/-- Embeddings of two dimensions were compared. -/
structure DimensionMismatch where
  left : Nat
  right : Nat
deriving DecidableEq, Repr

def DimensionMismatch.message (e : DimensionMismatch) : String :=
  "Embedding dimensions differ: " ++ toString e.left ++ " vs " ++ toString e.right

namespace Embedding

/-- The sum of the products of the components, from the left and onto `start`. -/
def dotFrom (start : Binary32) : Embedding → Embedding → Binary32
  | x :: a, y :: b => dotFrom (start + x * y) a b
  | _, _ => start

def dot (a b : Embedding) : Binary32 := dotFrom .zero a b

/-- The cosine of the angle between two embeddings of one dimension. -/
def cosine (a b : Embedding) : Binary32 :=
  let squareA := dot a a
  let squareB := dot b b
  if squareA.same .zero || squareB.same .zero then .zero
  else dot a b / (squareA.sqrt * squareB.sqrt)

/-- The similarity of two embeddings, unless their dimensions differ. -/
def similarity? (a b : Embedding) : Except DimensionMismatch Binary32 :=
  if a.length = b.length then .ok (cosine a b) else .error ⟨a.length, b.length⟩

end Embedding

end DeviceNaming
