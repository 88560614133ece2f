import DeviceNaming.Json.Decoder

/-!
# Records in a document

A record is written as an object, with its members in any order and with unknown members among them, or
as an array of its fields in their order. `Layout` names the record and its fields; `Decoder.record` reads
either form into `Fields`, out of which the fields are taken by name and position.

An object is checked member by member in the order of the text: keys, repetitions, the values of known
members by their own decoders, and that the other values are well formed. After that only a missing field
can fail, so the fields of an object are looked up and do not depend on the order of its members.
-/

namespace DeviceNaming.Json

/-- A field of a record: its name and the check of its value. -/
structure FieldCheck where
  name : String
  check : Draft → Except DecodeError Unit

/-- The check that a decoder makes. -/
def FieldCheck.of {α : Type} (name : String) (d : Decoder α) : FieldCheck :=
  ⟨name, fun x => (d x).map fun _ => ()⟩

/-- The name of a record and its fields in their order. -/
structure Layout where
  name : String
  fields : List FieldCheck

/-- The fields of a record as they stand in a document. -/
inductive Fields where
  | named (members : List (String × Draft))
  | positional (items : List Draft) (ending : Ending)

namespace Layout

def expected (l : Layout) : String := "struct " ++ l.name

/-- The record in messages about its length. -/
def expectedLength (l : Layout) : String :=
  l.expected ++ " with " ++ toString l.fields.length ++
    (if l.fields.length = 1 then " element" else " elements")

def field? (l : Layout) (name : String) : Option FieldCheck :=
  l.fields.find? fun f => f.name == name

/-- Checks the members of an object in the order of the text. `seen` holds the known names that were met. -/
def checkMembers (l : Layout) (seen : List String) :
    List (Except Fault String × Draft) → Ending → Except DecodeError (List (String × Draft))
  | [], ending => (Decoder.close ending).map fun _ => []
  | (.error f, _) :: _, _ => .error (.fault f)
  | (.ok key, x) :: members, ending =>
      match l.field? key with
      | none =>
          match x.skipFault? with
          | some f => .error (.fault f)
          | none => checkMembers l seen members ending
      | some f =>
          if seen.contains key then .error (.mismatch (.duplicateField key))
          else do
            f.check x
            let rest ← checkMembers l (key :: seen) members ending
            .ok ((key, x) :: rest)

end Layout

namespace Fields

/-- The field of a name and position, if it is there. -/
def find? (fs : Fields) (i : Nat) (name : String) : Except DecodeError (Option Draft) :=
  match fs with
  | .named members => .ok (members.lookup name)
  | .positional items ending => Decoder.itemAt items ending i

def required {α : Type} (fs : Fields) (l : Layout) (i : Nat) (name : String) (d : Decoder α) :
    Except DecodeError α := do
  match ← fs.find? i name with
  | some x => d x
  | none =>
      match fs with
      | .named _ => .error (.mismatch (.missingField name))
      | .positional .. => .error (.mismatch (.wrongLength i l.expectedLength))

def optional {α : Type} (fs : Fields) (i : Nat) (name : String) (d : Decoder α) (default : α) :
    Except DecodeError α := do
  match ← fs.find? i name with
  | some x => d x
  | none => .ok default

/-- The end of a record of which `n` fields were read. -/
def finish (fs : Fields) (n : Nat) : Except DecodeError Unit :=
  match fs with
  | .named _ => .ok ()
  | .positional items ending => Decoder.closeAfter n items ending

end Fields

/-- A record: `build` takes the fields. -/
def Decoder.record {α : Type} (l : Layout) (build : Fields → Except DecodeError α) : Decoder α
  | .object members ending => do
      let members ← l.checkMembers [] members ending
      build (.named members)
  | .array items ending => do
      let v ← build (.positional items ending)
      (Fields.positional items ending).finish l.fields.length
      .ok v
  | x => Decoder.refuse l.expected x

end DeviceNaming.Json
