/-!
# Kinds of names

Each name of a device has a kind. Four kinds are known by their tags; any other tag is kept as it is.
-/

namespace DeviceNaming

/-- The kind of a name. -/
inductive VariantTag where
  | primaryName
  | userRenamed
  | aliasName
  | friendlyName
  | other (tag : String)
deriving DecidableEq, Repr

namespace VariantTag

/-- The tag as it is written. -/
def tag : VariantTag → String
  | primaryName => "primary_name"
  | userRenamed => "user_renamed"
  | aliasName => "alias"
  | friendlyName => "friendly_name"
  | other t => t

/-- The kind that a tag names. -/
def ofTag (t : String) : VariantTag :=
  if t = "primary_name" then primaryName
  else if t = "user_renamed" then userRenamed
  else if t = "alias" then aliasName
  else if t = "friendly_name" then friendlyName
  else other t

theorem tag_ofTag (t : String) : (ofTag t).tag = t := by
  unfold ofTag
  split <;> (try split) <;> (try split) <;> (try split) <;> simp_all [tag]

end VariantTag

end DeviceNaming
