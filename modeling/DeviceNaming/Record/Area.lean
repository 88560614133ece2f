import DeviceNaming.Json.Fields
import DeviceNaming.Json.Writer

/-!
# Area records

What discovery reports about a room or zone: its id, its name, the other names it goes by, and the area it
lies in. `AreaRecord.encode` writes a record as a document, `AreaRecord.decoder` reads one.
-/

namespace DeviceNaming

/-- What is reported about an area. -/
structure AreaRecord where
  areaId : String
  name : String
  aliases : List String
  parentId : Option String
  parentName : Option String
deriving DecidableEq, Repr

namespace AreaRecord

/-- A record without aliases and without a parent. -/
def new (areaId name : String) : AreaRecord := ⟨areaId, name, [], none, none⟩

def withAlias (r : AreaRecord) (name : String) : AreaRecord :=
  { r with aliases := r.aliases ++ [name] }

def withParent (r : AreaRecord) (parentId : String) (parentName : Option String) : AreaRecord :=
  { r with parentId := some parentId, parentName := parentName }

open Json

def layout : Layout where
  name := "AreaRecord"
  fields := [
    .of "area_id" Decoder.text,
    .of "name" Decoder.text,
    .of "aliases" (Decoder.list Decoder.text),
    .of "parent_area_id" (Decoder.nullable Decoder.text),
    .of "parent_area_name" (Decoder.nullable Decoder.text)]

def ofFields (fs : Fields) : Except DecodeError AreaRecord := do
  let areaId ← fs.required layout 0 "area_id" Decoder.text
  let name ← fs.required layout 1 "name" Decoder.text
  let aliases ← fs.optional 2 "aliases" (Decoder.list Decoder.text) []
  let parentId ← fs.optional 3 "parent_area_id" (Decoder.nullable Decoder.text) none
  let parentName ← fs.optional 4 "parent_area_name" (Decoder.nullable Decoder.text) none
  .ok ⟨areaId, name, aliases, parentId, parentName⟩

def decoder : Decoder AreaRecord := Decoder.record layout ofFields

/-- The record as a document; a missing parent leaves its members out. -/
def write (r : AreaRecord) : List Char :=
  writeObject [
    ("area_id", some (writeText r.areaId)),
    ("name", some (writeText r.name)),
    ("aliases", some (writeArray (r.aliases.map writeText))),
    ("parent_area_id", r.parentId.map writeText),
    ("parent_area_name", r.parentName.map writeText)]

def encode (r : AreaRecord) : String := String.ofList r.write

def toBytes (r : AreaRecord) : ByteArray := r.encode.toUTF8

def ofBytes? (bytes : ByteArray) : Except DecodeError AreaRecord :=
  decode decoder (Source.ofBytes bytes)

end AreaRecord

end DeviceNaming
