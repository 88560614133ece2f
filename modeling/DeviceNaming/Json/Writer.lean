/-!
# Writing a document

Documents are written compactly: no white space, members in a fixed order, and in strings only what has to be
escaped is escaped.
-/

namespace DeviceNaming.Json

def hexDigit (n : Nat) : Char := Nat.digitChar n

/-- A character as it stands in a string. -/
def writeChar (c : Char) : List Char :=
  if c = '"' then ['\\', '"']
  else if c = '\\' then ['\\', '\\']
  else if c = '\x08' then ['\\', 'b']
  else if c = '\x0c' then ['\\', 'f']
  else if c = '\n' then ['\\', 'n']
  else if c = '\r' then ['\\', 'r']
  else if c = '\t' then ['\\', 't']
  else if c.toNat < 0x20 then ['\\', 'u', '0', '0', hexDigit (c.toNat / 16), hexDigit (c.toNat % 16)]
  else [c]

def writeText (s : String) : List Char := '"' :: s.toList.flatMap writeChar ++ ['"']

/-- Parts with commas between them. -/
def commaSeparated : List (List Char) → List Char
  | [] => []
  | [p] => p
  | p :: ps => p ++ ',' :: commaSeparated ps

def writeArray (items : List (List Char)) : List Char := '[' :: commaSeparated items ++ [']']

/-- An object of written values under their names; a missing value leaves its member out. -/
def writeObject (members : List (String × Option (List Char))) : List Char :=
  '\x7b' :: commaSeparated (members.filterMap fun (name, v) =>
    v.map fun v => writeText name ++ ':' :: v) ++ ['\x7d']

end DeviceNaming.Json
