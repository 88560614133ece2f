import DeviceNaming.Json.Mismatch

/-!
# Decoders

A decoder turns a draft into a value or reports the first problem in the order of the text. This module has
the decoders of scalars, options, lists and pairs; `Json.Fields` adds records. `decode` runs one on a whole
document, which nothing may follow.
-/

namespace DeviceNaming.Json

/-- Reads a value of type `α` out of a draft. -/
abbrev Decoder (α : Type) := Draft → Except DecodeError α

namespace Decoder

/-- The report that a draft is not of the wanted kind; a fault inside its first token comes first. -/
def refuse {α : Type} (expected : String) : Decoder α
  | .null => .error (.mismatch (.wrongKind .null expected))
  | .bool b => .error (.mismatch (.wrongKind (.bool b) expected))
  | .number n =>
      match n.read with
      | .ok v => .error (.mismatch (.wrongKind v.found expected))
      | .error f => .error (.fault f)
  | .text (.ok s) => .error (.mismatch (.wrongKind (.text s) expected))
  | .text (.error f) => .error (.fault f)
  | .array .. => .error (.mismatch (.wrongKind .sequence expected))
  | .object .. => .error (.mismatch (.wrongKind .map expected))
  | .broken read _ => .error (.fault read)

def text : Decoder String
  | .text (.ok s) => .ok s
  | d => refuse "a string" d

/-- A natural number below 2^64; `expected` names it in messages. -/
def natural (expected : String) : Decoder Nat
  | .number n =>
      match n.read with
      | .ok (.natural v) => .ok v
      | .ok (.negative v) => .error (.mismatch (.wrongValue (.integer (-(v : Int))) expected))
      | .ok (.float x) => .error (.mismatch (.wrongKind (.float x) expected))
      | .error f => .error (.fault f)
  | d => refuse expected d

def binary32 : Decoder Binary32
  | .number n =>
      match n.read with
      | .ok (.natural v) => .ok (Binary32.ofNat v)
      | .ok (.negative v) => .ok ⟨(Binary32.ofNat v).bits ||| 0x80000000⟩
      | .ok (.float x) => .ok (Binary32.ofFloat x)
      | .error f => .error (.fault f)
  | d => refuse "f32" d

def nullable {α : Type} (d : Decoder α) : Decoder (Option α)
  | .null => .ok none
  | x => (d x).map some

/-- The end of a list that is read to its end. -/
def close : Ending → Except DecodeError Unit
  | .closed => .ok ()
  | .broken read _ => .error (.fault read)

/-- The items of an array one after the other, then its end. -/
def items {α : Type} (d : Decoder α) : List Draft → Ending → Except DecodeError (List α)
  | [], ending => (close ending).map fun _ => []
  | x :: xs, ending => do
      let v ← d x
      let vs ← items d xs ending
      .ok (v :: vs)

def list {α : Type} (d : Decoder α) : Decoder (List α)
  | .array xs ending => items d xs ending
  | x => refuse "a sequence" x

/-- The item of an array at a position, if the array closes before it. -/
def itemAt (xs : List Draft) (ending : Ending) (i : Nat) : Except DecodeError (Option Draft) :=
  match xs[i]? with
  | some x => .ok (some x)
  | none => (close ending).map fun _ => none

/-- The end of an array of which `n` items were read: another item is malformed. -/
def closeAfter (n : Nat) (xs : List Draft) (ending : Ending) : Except DecodeError Unit :=
  if n < xs.length then .error (.fault .malformed) else close ending

def pair {α β : Type} (first : Decoder α) (second : Decoder β) : Decoder (α × β)
  | .array xs ending => do
      let missing := fun (n : Nat) => DecodeError.mismatch (.wrongLength n "a tuple of size 2")
      let some x ← itemAt xs ending 0 | .error (missing 0)
      let a ← first x
      let some y ← itemAt xs ending 1 | .error (missing 1)
      let b ← second y
      closeAfter 2 xs ending
      .ok (a, b)
  | x => refuse "a tuple of size 2" x

end Decoder

/-- Decodes a whole document: a value with nothing after it. -/
def decode {α : Type} (d : Decoder α) (s : Source) : Except DecodeError α := do
  let (draft, rest) := Draft.ofTokens (tokens s)
  let v ← d draft
  if rest.isEmpty then .ok v else .error (.fault .malformed)

end DeviceNaming.Json
