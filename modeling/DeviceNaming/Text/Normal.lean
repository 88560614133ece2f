import DeviceNaming.Text.Blank
import DeviceNaming.Text.Lowercase

/-!
# Normal form of a name

Every index and every cache key goes through the same normal form: trimmed, then in lowercase.
`normalize` gives it, `normalize?` gives it for texts that are not blank.
-/

namespace DeviceNaming.Text

/-- The normal form of a name: trimmed and in lowercase. -/
def normalize (text : String) : String :=
  String.ofList (lowercase (trim text.toList))

/-- The normal form of a name, unless it is empty. -/
def normalize? (text : String) : Option String :=
  let name := normalize text
  if name = "" then none else some name

end DeviceNaming.Text
