import DeviceNaming.Household.Resolver
import DeviceNaming.Embedding.Scripted

/-!
# A sample house

A small house with seven areas and six devices, for trying a resolver out.
-/

namespace DeviceNaming.Sample

/-- A strip of light in the office, also called a lamp. -/
def wledOffice : EntityRecord :=
  ((EntityRecord.ofEntityId "light.wled_office").withName .primaryName "WLED Office"
    |>.withName .aliasName "Office Lamp").withArea "office" "Office"

/-- A lamp in the office. -/
def officeLamp : EntityRecord :=
  ((EntityRecord.ofEntityId "light.office_lamp").withName .primaryName "Office Lamp").withArea
    "office" "Office"

def areas : List AreaRecord := [
  .new "upstairs" "Upstairs",
  .new "ground" "Ground Floor",
  (AreaRecord.new "bedroom" "Bedroom").withParent "upstairs" (some "Upstairs"),
  (AreaRecord.new "office" "Office").withParent "upstairs" (some "Upstairs"),
  (AreaRecord.new "kitchen" "Kitchen").withParent "ground" (some "Ground Floor"),
  ((AreaRecord.new "lounge" "Lounge").withAlias "living room").withParent "ground" (some "Ground Floor"),
  .new "garage" "Garage"]

/-- A device of the house with one or two names. -/
def device (entityId : String) (names : List (VariantTag × String)) (areaId areaName : String) :
    EntityRecord :=
  (names.foldl (fun r n => r.withName n.1 n.2) (EntityRecord.ofEntityId entityId)).withArea areaId areaName

def entities : List EntityRecord := [
  wledOffice,
  device "light.bedside" [(.primaryName, "Bedside Lamp")] "bedroom" "Bedroom",
  device "light.kitchen_ceiling" [(.primaryName, "Kitchen Light"), (.friendlyName, "Ceiling Light")]
    "kitchen" "Kitchen",
  device "fan.lounge" [(.primaryName, "Lounge Fan")] "lounge" "Lounge",
  device "light.floor_lamp" [(.primaryName, "Floor Lamp"), (.userRenamed, "Reading Lamp")]
    "lounge" "Lounge",
  device "cover.garage_door" [(.primaryName, "Garage Door")] "garage" "Garage"]

def areasDocument : String := String.ofList (Json.writeArray (areas.map AreaRecord.write))

def entitiesDocument : String := String.ofList (Json.writeArray (entities.map EntityRecord.write))

/-- A resolver with the settings unless set otherwise. -/
def resolver (provider : Option Provider) : Resolver := .new .default provider

/-- Its memory once it has built the house for a user. -/
def start (provider : Option Provider) (user : String) : ResolverState :=
  let r := resolver provider
  (r.rebuild user areas entities r.start).2

end DeviceNaming.Sample
