import DeviceNaming.Text.CaseTable

/-!
# Lowercase

Full lowercasing of a text. Each character has its own lowercase form, which is one character
except for `İ`; a capital sigma is the only one whose form depends on its neighbours
(`atWordEnd`). `lowercase` walks the text once and keeps what lies behind it, nearest first.
-/

namespace DeviceNaming.Text

/-- Does the character have a case? -/
def isCased (c : Char) : Bool := covers c.toNat casedRanges

/-- Is the character passed over when the neighbours of a sigma are looked for? -/
def isCaseIgnorable (c : Char) : Bool := covers c.toNat caseIgnorableRanges

/-- The simple lowercase form of a character. -/
def lowerChar (c : Char) : Char :=
  match CaseRun.find? c.toNat lowercaseRuns with
  | some r => Char.ofNat (c.toNat + r.shift).toNat
  | none => c

/-- The lowercase form of a character that stands alone: `İ` becomes an `i` and a dot above. -/
def lowerForm (c : Char) : List Char :=
  if c = '\u0130' then ['i', '\u0307'] else [lowerChar c]

/-- Is the first character that is not case-ignorable a cased one? -/
def startsCased (s : List Char) : Bool :=
  match s.dropWhile isCaseIgnorable with
  | [] => false
  | c :: _ => isCased c

/-- A sigma ends a word when a cased character comes before it and none follows. -/
def atWordEnd (before after : List Char) : Bool := startsCased before && !startsCased after

/-- The lowercase forms of the characters after `before`, which is kept nearest first. -/
def lowercaseAfter (before : List Char) : List Char → List Char
  | [] => []
  | c :: rest =>
      let form :=
        if c = 'Σ' then [if atWordEnd before rest then 'ς' else 'σ'] else lowerForm c
      form ++ lowercaseAfter (c :: before) rest

def lowercase (s : List Char) : List Char := lowercaseAfter [] s

end DeviceNaming.Text
