import DeviceNaming.Text.CodeRange

/-!
# Blank characters

The 25 characters with the Unicode property `White_Space`, and trimming: `trim` drops them at both
ends of a text and nothing in between. Files and paths know two blanks only, the space and the tab.
-/

namespace DeviceNaming.Text

/-- Code points with the property `White_Space`. -/
def blankRanges : List (Nat × Nat) :=
  [(0x09, 0x0D), (0x20, 0x20), (0x85, 0x85), (0xA0, 0xA0), (0x1680, 0x1680), (0x2000, 0x200A),
   (0x2028, 0x2029), (0x202F, 0x202F), (0x205F, 0x205F), (0x3000, 0x3000)]

def isBlank (c : Char) : Bool := covers c.toNat blankRanges

/-- The text without the blanks at its start. -/
def trimStart (s : List Char) : List Char := s.dropWhile isBlank

/-- The text without the blanks at its end. -/
def trimEnd (s : List Char) : List Char := (s.reverse.dropWhile isBlank).reverse

/-- The text without the blanks at its two ends. -/
def trim (s : List Char) : List Char := trimEnd (trimStart s)

def trimmed (s : String) : String := String.ofList (trim s.toList)

def isSpace (c : Char) : Bool := c = ' ' || c = '\t'

/-- The text after its spaces and tabs. -/
def skipSpace (s : List Char) : List Char := s.dropWhile isSpace

end DeviceNaming.Text
