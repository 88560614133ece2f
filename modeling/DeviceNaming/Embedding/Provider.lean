import DeviceNaming.Embedding.Similarity

/-!
# Embedding providers

A provider turns a text into an embedding after a while, or fails. Its answer may depend on the time and on
the texts it was asked for before; a provider whose answer depends on the text alone is `Steady`.
-/

namespace DeviceNaming

/-- Why a provider has no embedding. -/
inductive ProviderFailure where
  | provider (text : String)
  | timeout (ms : Nat)
  | dimensionMismatch (expected actual : Nat)
  | invalidInput (text : String)
deriving DecidableEq, Repr

def ProviderFailure.message : ProviderFailure → String
  | provider text => "Provider error: " ++ text
  | timeout ms => "Embedding timed out after " ++ toString ms ++ "ms"
  | dimensionMismatch expected actual =>
      "Dimension mismatch: expected " ++ toString expected ++ ", got " ++ toString actual
  | invalidInput text => "Invalid input: " ++ text

/-- What a provider answers, and after how many milliseconds. -/
structure Reply where
  delay : Nat
  outcome : Except ProviderFailure Embedding

structure Provider where
  /-- the dimension that it declares; 0 leaves it open -/
  dimension : Nat
  reply : (now : Nat) → (asked : List String) → (text : String) → Reply

namespace Provider

/-- A provider that answers by the text alone. -/
def ofText (dimension : Nat) (reply : String → Reply) : Provider := ⟨dimension, fun _ _ => reply⟩

/-- The answer depends on the text alone. -/
def Steady (p : Provider) : Prop :=
  ∀ now asked text, p.reply now asked text = p.reply 0 [] text

/-- Every answer comes at once. -/
def Prompt (p : Provider) : Prop := ∀ now asked text, (p.reply now asked text).delay = 0

theorem steady_ofText (dimension : Nat) (reply : String → Reply) : (ofText dimension reply).Steady :=
  fun _ _ _ => rfl

end Provider

end DeviceNaming
