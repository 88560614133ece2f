import DeviceNaming.Text.HiddenTable

/-!
# Quoted text in messages

`quoted` writes a text between quotes so that a reader of a message sees every character: quotes and
backslashes are escaped, the usual controls by a letter, and what does not show by its number.
-/

namespace DeviceNaming.Text

/-- A character as it stands in a quoted text. -/
def quotedChar (c : Char) : List Char :=
  if c = '"' then ['\\', '"']
  else if c = '\\' then ['\\', '\\']
  else if c = '\n' then ['\\', 'n']
  else if c = '\r' then ['\\', 'r']
  else if c = '\t' then ['\\', 't']
  else if c = '\x00' then ['\\', '0']
  else if covers c.toNat hiddenRanges then
    ['\\', 'u', '\x7b'] ++ Nat.toDigits 16 c.toNat ++ ['\x7d']
  else [c]

/-- The text between quotes. -/
def quoted (s : String) : String :=
  String.ofList ('"' :: s.toList.flatMap quotedChar ++ ['"'])

end DeviceNaming.Text
