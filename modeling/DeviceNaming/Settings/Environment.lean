import DeviceNaming.Number.Width
import DeviceNaming.Settings.Path
import DeviceNaming.Text.Search

/-!
# Settings in the environment

A variable whose name starts with `RESOLVER_`, in any case, is a setting; two underscores in the rest of its name
lead into a section. Its value is read as a truth value, an integer or a number if it is written like one, and is
a text otherwise.
-/

namespace DeviceNaming.Settings.Environment

/-- How the names of settings start, in lowercase. -/
def marker : List Char := ['r', 'e', 's', 'o', 'l', 'v', 'e', 'r', '_']

/-- The setting that a variable names. -/
def key? (name : String) : Option String :=
  let s := Text.lowercase name.toList
  if marker.isPrefixOf s then
    some (String.ofList (Text.replaceChars ['_', '_'] ['.'] (s.drop marker.length)))
  else none

/-- The value of a variable. -/
def value (text : String) : Tree :=
  let s := text.toList
  let word := String.ofList (Text.lowercase s)
  if word = "true" then .bool true
  else if word = "false" then .bool false
  else
    match (Reading.int? s).filter Width.fits with
    | some n => .int n
    | none =>
        match Reading.float? s with
        | some x => .float x
        | none => .text text

def layer (entries : List (String × String)) : List (String × Tree) :=
  entries.filterMap fun (name, text) => (key? name).map fun key => (key, value text)

end DeviceNaming.Settings.Environment
