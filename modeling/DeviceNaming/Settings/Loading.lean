import DeviceNaming.Settings.Conversion
import DeviceNaming.Settings.Environment
import DeviceNaming.Toml.Document

/-!
# Loading settings

Settings are loaded from the file of the user, from a file that is named, and from the environment, each
laid over what comes before it, and all of it over the defaults. The user may do without a file; a named file
has to be there and is read by its extension. What comes out must be usable (`Settings.invalid?`).
-/

namespace DeviceNaming

namespace Settings

/-- A file that is named: its name and its text, if there is such a file. -/
structure NamedFile where
  name : String
  text : Option String

/-- Where settings come from besides the defaults. -/
structure Sources where
  /-- the text of the file of the user, if there is one -/
  userFile : Option String
  namedFile : Option NamedFile
  /-- the variables of the environment -/
  environment : List (String × String)

/-- Why settings were not loaded. -/
inductive LoadError where
  /-- a source cannot be read, or a value cannot be what its field needs -/
  | unreadable
  /-- the settings break a rule -/
  | invalid (rule : String)
deriving DecidableEq, Repr

/-- The extension of a file: what follows the last dot of its name, unless nothing precedes that dot. -/
def extension (name : String) : List Char :=
  let reversed := name.toList.reverse
  match Text.splitAtFirst '.' reversed with
  | some (_, []) => []
  | some (tail, _) => tail.reverse
  | none => []

/-- The layer of a file that is named. -/
def NamedFile.layer? (f : NamedFile) : Option (List (String × Tree)) := do
  let text ← f.text
  if extension f.name = ['t', 'o', 'm', 'l'] then Toml.parse? text
  else if extension f.name = ['j', 's', 'o', 'n'] then Tree.ofDocument? text
  else none

/-- The defaults as a tree. -/
def defaultTree : Tree := .table [
  ("log_level", .text "info"),
  ("embedding", .table [("timeout_ms", .int 2000)]),
  ("embedding_cache", .table [("max_size", .int 1000)]),
  ("query_cache", .table [("max_size", .int 500), ("ttl_secs", .int 300)]),
  ("index_cache", .table [("ttl_secs", .int 3600)]),
  ("areas", .table [("semantic_threshold", .float (Float.ofBits 0x3FE6666660000000))]),
  ("search", .table [("default_limit", .int 5)])]

/-- The layers, lowest first. -/
def Sources.layers? (s : Sources) : Option (List (List (String × Tree))) := do
  let user ← match s.userFile with
    | none => some []
    | some text => Toml.parse? text
  let named ← match s.namedFile with
    | none => some []
    | some f => f.layer?
  some [user, named, Environment.layer s.environment]

/-- The layers laid over each other and over the defaults. -/
def Sources.tree? (s : Sources) : Option Tree :=
  s.layers?.map fun layers =>
    Tree.layAll (layers.foldl (fun t layer => Tree.layAll layer t) (.table [])).entries defaultTree

def load (s : Sources) : Except LoadError Settings :=
  match s.tree?.bind Tree.settings? with
  | none => .error .unreadable
  | some settings =>
      match settings.invalid? with
      | some rule => .error (.invalid rule)
      | none => .ok settings

end Settings

/-- What goes wrong outside of a query: the configuration, or a document of records. -/
inductive ResolverError where
  | config (text : String)
  | serialization (text : String)
deriving DecidableEq, Repr

def ResolverError.message : ResolverError → String
  | config text => "Configuration error: " ++ text
  | serialization text => "Serialization error: " ++ text

end DeviceNaming
