import DeviceNaming.Record.VariantTag
import DeviceNaming.Text.Search
import DeviceNaming.Json.Fields
import DeviceNaming.Json.Writer

/-!
# Entity records

What discovery reports about a device: its id and domain, where it stands, and the names it goes by.
`EntityRecord.encode` writes a record as a document, `EntityRecord.decoder` reads one; `toBytes` and
`ofBytes?` are the same over bytes.
-/

namespace DeviceNaming

/-- What is reported about a device. -/
structure EntityRecord where
  entityId : String
  domain : String
  deviceId : Option String
  areaId : Option String
  areaName : Option String
  names : List (VariantTag × String)
deriving DecidableEq, Repr

namespace EntityRecord

/-- A record without a place and without names. -/
def new (entityId domain : String) : EntityRecord := ⟨entityId, domain, none, none, none, []⟩

/-- The domain in front of the first dot of an entity id; empty without a dot. -/
def domainOf (entityId : String) : String :=
  match Text.splitAtFirst '.' entityId.toList with
  | some (head, _) => String.ofList head
  | none => ""

/-- A record whose domain is taken from the id. -/
def ofEntityId (entityId : String) : EntityRecord := new entityId (domainOf entityId)

def withName (r : EntityRecord) (tag : VariantTag) (name : String) : EntityRecord :=
  { r with names := r.names ++ [(tag, name)] }

def withDevice (r : EntityRecord) (deviceId : String) : EntityRecord :=
  { r with deviceId := some deviceId }

def withArea (r : EntityRecord) (areaId areaName : String) : EntityRecord :=
  { r with areaId := some areaId, areaName := some areaName }

open Json

/-- The kind and the text of a name. -/
def nameDecoder : Decoder (VariantTag × String) :=
  Decoder.pair (fun d => (Decoder.text d).map VariantTag.ofTag) Decoder.text

def layout : Layout where
  name := "EntityRecord"
  fields := [
    .of "entity_id" Decoder.text,
    .of "domain" Decoder.text,
    .of "device_id" (Decoder.nullable Decoder.text),
    .of "area_id" (Decoder.nullable Decoder.text),
    .of "area_name" (Decoder.nullable Decoder.text),
    .of "name_variants" (Decoder.list nameDecoder)]

def ofFields (fs : Fields) : Except DecodeError EntityRecord := do
  let entityId ← fs.required layout 0 "entity_id" Decoder.text
  let domain ← fs.required layout 1 "domain" Decoder.text
  let deviceId ← fs.optional 2 "device_id" (Decoder.nullable Decoder.text) none
  let areaId ← fs.optional 3 "area_id" (Decoder.nullable Decoder.text) none
  let areaName ← fs.optional 4 "area_name" (Decoder.nullable Decoder.text) none
  let names ← fs.optional 5 "name_variants" (Decoder.list nameDecoder) []
  .ok ⟨entityId, domain, deviceId, areaId, areaName, names⟩

def decoder : Decoder EntityRecord := Decoder.record layout ofFields

/-- The record as a document; missing values leave their members out. -/
def write (r : EntityRecord) : List Char :=
  writeObject [
    ("entity_id", some (writeText r.entityId)),
    ("domain", some (writeText r.domain)),
    ("device_id", r.deviceId.map writeText),
    ("area_id", r.areaId.map writeText),
    ("area_name", r.areaName.map writeText),
    ("name_variants", some (writeArray (r.names.map fun (t, n) =>
      writeArray [writeText t.tag, writeText n])))]

def encode (r : EntityRecord) : String := String.ofList r.write

def toBytes (r : EntityRecord) : ByteArray := r.encode.toUTF8

def ofBytes? (bytes : ByteArray) : Except DecodeError EntityRecord :=
  decode decoder (Source.ofBytes bytes)

end EntityRecord

end DeviceNaming
