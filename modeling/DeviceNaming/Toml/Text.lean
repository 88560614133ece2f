import DeviceNaming.Number.Reading
import DeviceNaming.Text.Blank

/-!
# Blanks, keys and strings of TOML

Each reader takes what it reads off the start of a text and gives the rest, or `none` if the text does not start
with it.
-/

namespace DeviceNaming.Toml

open Text (skipSpace)

/-- Is the character a control that may stand in no comment and in no string? -/
def isControl (c : Char) : Bool := (c.toNat < 0x20 && c != '\t') || c.toNat == 0x7F

/-- The text after a line break. -/
def lineBreak? : List Char → Option (List Char)
  | '\n' :: s => some s
  | '\r' :: '\n' :: s => some s
  | _ => none

/-- The text from the end of its line on, after spaces and perhaps a comment. -/
def skipComment (s : List Char) : List Char :=
  match skipSpace s with
  | '#' :: s => s.dropWhile fun c => !isControl c
  | s => s

/-- The text after the end of its line. -/
def lineEnd? (s : List Char) : Option (List Char) :=
  match skipComment s with
  | [] => some []
  | s => lineBreak? s

/-- The text after spaces, comments and line breaks, in at most `fuel` steps. -/
def skipLines : (fuel : Nat) → List Char → List Char
  | 0, s => s
  | fuel + 1, s =>
      let s := skipComment s
      match lineBreak? s with
      | some s => skipLines fuel s
      | none => s

/-- Is the character one of a key without quotes? -/
def isKeyChar (c : Char) : Bool := c.isAlphanum || c = '_' || c = '-'

def hexValue? (c : Char) : Option Nat :=
  if c.isDigit then some (c.toNat - '0'.toNat)
  else if 'a' ≤ c ∧ c ≤ 'f' then some (c.toNat - 'a'.toNat + 10)
  else if 'A' ≤ c ∧ c ≤ 'F' then some (c.toNat - 'A'.toNat + 10)
  else none

/-- The character whose number has `n` hexadecimal digits. -/
def codePoint? (n : Nat) (s : List Char) : Option (Char × List Char) := do
  let ds ← (s.take n).mapM hexValue?
  let v := ds.foldl (fun v d => v * 16 + d) 0
  if ds.length = n ∧ (v < 0xD800 ∨ (0xE000 ≤ v ∧ v < 0x110000)) then some (Char.ofNat v, s.drop n)
  else none

/-- The character after a backslash. -/
def escape? : List Char → Option (Char × List Char)
  | 'b' :: s => some ('\x08', s)
  | 't' :: s => some ('\t', s)
  | 'n' :: s => some ('\n', s)
  | 'f' :: s => some ('\x0c', s)
  | 'r' :: s => some ('\r', s)
  | '"' :: s => some ('"', s)
  | '\\' :: s => some ('\\', s)
  | 'u' :: s => codePoint? 4 s
  | 'U' :: s => codePoint? 8 s
  | _ => none

/-- A string in double quotes on one line, after its quote. -/
def basicString? : (fuel : Nat) → List Char → Option (List Char × List Char)
  | 0, _ => none
  | _ + 1, [] => none
  | _ + 1, '"' :: s => some ([], s)
  | fuel + 1, '\\' :: s => do
      let (c, s) ← escape? s
      let (cs, s) ← basicString? fuel s
      some (c :: cs, s)
  | fuel + 1, c :: s => do
      if isControl c then none
      let (cs, s) ← basicString? fuel s
      some (c :: cs, s)

/-- A string in single quotes on one line, after its quote. -/
def literalString? : List Char → Option (List Char × List Char)
  | [] => none
  | '\'' :: s => some ([], s)
  | c :: s => do
      if isControl c then none
      let (cs, s) ← literalString? s
      some (c :: cs, s)

/-- The quotes at the end of a string in three quotes: at most two more than the three belong to the string. -/
def closingQuotes? (q : Char) (s : List Char) : Option (List Char × List Char) :=
  let run := s.takeWhile fun c => c = q
  if run.length < 3 then none
  else
    let extra := min (run.length - 3) 2
    some (List.replicate extra q, s.drop (3 + extra))

/-- The text after spaces and line breaks, in at most `fuel` steps. -/
def skipBlankLines : (fuel : Nat) → List Char → List Char
  | 0, s => s
  | fuel + 1, s =>
      let s := skipSpace s
      match lineBreak? s with
      | some s => skipBlankLines fuel s
      | none => s

/-- The text after a backslash at the end of a line and the blank lines and spaces that follow. -/
def continuedLine? (s : List Char) : Option (List Char) :=
  (lineBreak? (skipSpace s)).map fun s => skipBlankLines s.length s

/-- A string in three double quotes, after them. -/
def longBasicString? : (fuel : Nat) → List Char → Option (List Char × List Char)
  | 0, _ => none
  | fuel + 1, s =>
      match closingQuotes? '"' s with
      | some found => some found
      | none =>
          match s with
          | [] => none
          | '\\' :: s =>
              match continuedLine? s with
              | some s => longBasicString? fuel s
              | none => do
                  let (c, s) ← escape? s
                  let (cs, s) ← longBasicString? fuel s
                  some (c :: cs, s)
          | c :: s =>
              match lineBreak? (c :: s) with
              | some s => (longBasicString? fuel s).map fun (cs, s) => ('\n' :: cs, s)
              | none =>
                  if isControl c then none
                  else (longBasicString? fuel s).map fun (cs, s) => (c :: cs, s)

/-- A string in three single quotes, after them. -/
def longLiteralString? : (fuel : Nat) → List Char → Option (List Char × List Char)
  | 0, _ => none
  | fuel + 1, s =>
      match closingQuotes? '\'' s with
      | some found => some found
      | none =>
          match s with
          | [] => none
          | c :: s =>
              match lineBreak? (c :: s) with
              | some s => (longLiteralString? fuel s).map fun (cs, s) => ('\n' :: cs, s)
              | none =>
                  if isControl c then none
                  else (longLiteralString? fuel s).map fun (cs, s) => (c :: cs, s)

/-- The text after a line break, if it starts with one. -/
def skipLineBreak (s : List Char) : List Char := (lineBreak? s).getD s

/-- A string of any of the four kinds. -/
def string? (s : List Char) : Option (List Char × List Char) :=
  match s with
  | '"' :: '"' :: '"' :: s => longBasicString? (s.length + 1) (skipLineBreak s)
  | '\'' :: '\'' :: '\'' :: s => longLiteralString? (s.length + 1) (skipLineBreak s)
  | '"' :: s => basicString? (s.length + 1) s
  | '\'' :: s => literalString? s
  | _ => none

def keyPart? (s : List Char) : Option (String × List Char) :=
  match s with
  | '"' :: s => (basicString? (s.length + 1) s).map fun (cs, s) => (String.ofList cs, s)
  | '\'' :: s => (literalString? s).map fun (cs, s) => (String.ofList cs, s)
  | s =>
      let part := s.takeWhile isKeyChar
      if part.isEmpty then none else some (String.ofList part, s.dropWhile isKeyChar)

/-- The parts of a key, joined by dots, in at most `fuel` steps; spaces may surround each. -/
def keyParts? : (fuel : Nat) → List Char → Option (List String × List Char)
  | 0, _ => none
  | fuel + 1, s => do
      let (part, s) ← keyPart? (skipSpace s)
      match skipSpace s with
      | '.' :: s =>
          let (parts, s) ← keyParts? fuel s
          some (part :: parts, s)
      | s => some ([part], s)

/-- How deep the values of a file may lie in each other, and how many parts a key may have. -/
def maxDepth : Nat := 79

def key? (s : List Char) : Option (List String × List Char) :=
  (keyParts? (s.length + 1) s).filter fun found => decide (found.1.length ≤ maxDepth)

/-- The digits at the start of a text, with single underscores between them. -/
def digitRun (isDigit : Char → Bool) : List Char → List Char × List Char
  | c :: '_' :: d :: s =>
      if isDigit c then
        if isDigit d then
          let (ds, rest) := digitRun isDigit (d :: s)
          (c :: ds, rest)
        else ([c], '_' :: d :: s)
      else ([], c :: '_' :: d :: s)
  | c :: s =>
      if isDigit c then
        let (ds, rest) := digitRun isDigit s
        (c :: ds, rest)
      else ([], c :: s)
  | [] => ([], [])

end DeviceNaming.Toml
