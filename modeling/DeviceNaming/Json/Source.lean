/-!
# Source text of a document

A document arrives as bytes. They are read as UTF-8 into characters, and a byte that belongs to no
character is kept as `none`: whether such a byte matters depends on where it stands, so reading does
not refuse it here.
-/

namespace DeviceNaming.Json

/-- The characters of a document, with `none` for each byte that belongs to no character. -/
abbrev Source := List (Option Char)

namespace Source

def ofText (text : String) : Source := text.toList.map some

/-- The source of the bytes from position `i` on, in at most `fuel` steps. -/
def ofBytesFrom (bytes : ByteArray) : (fuel i : Nat) → Source
  | 0, _ => []
  | fuel + 1, i =>
      if i < bytes.size then
        match bytes.utf8DecodeChar? i with
        | some c => some c :: ofBytesFrom bytes fuel (i + c.utf8Size)
        | none => none :: ofBytesFrom bytes fuel (i + 1)
      else []

def ofBytes (bytes : ByteArray) : Source := ofBytesFrom bytes bytes.size 0

def byteSize (s : Source) : Nat :=
  s.foldl (fun n c => n + match c with
    | some c => c.utf8Size
    | none => 1) 0

end Source

end DeviceNaming.Json
