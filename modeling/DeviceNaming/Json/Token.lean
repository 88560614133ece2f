import DeviceNaming.Json.Numeral

/-!
# Tokens of a document

`tokens` cuts a source into tokens. Reading and passing over a value do not refuse the same texts: a
string that is read must spell characters, and a number that is cut off by the end of the document is
"ended" to a reader and "malformed" to who only passes it. So a string token carries the outcome of
reading it, and a token that breaks off carries both faults. Nothing follows a broken token.
-/

namespace DeviceNaming.Json

inductive Token where
  | comma
  | colon
  | openArray
  | closeArray
  | openObject
  | closeObject
  | null
  | bool (b : Bool)
  | number (n : Numeral)
  /-- a closed string, with its characters if it spells any -/
  | text (content : Except Fault String)
  /-- a string that breaks off -/
  | brokenText (read skip : Fault)
  /-- anything else that breaks off -/
  | broken (read skip : Fault)

def hexDigit? (c : Char) : Option Nat :=
  if '0' ≤ c ∧ c ≤ '9' then some (c.toNat - '0'.toNat)
  else if 'a' ≤ c ∧ c ≤ 'f' then some (c.toNat - 'a'.toNat + 10)
  else if 'A' ≤ c ∧ c ≤ 'F' then some (c.toNat - 'A'.toNat + 10)
  else none

/-- The four hexadecimal digits at the start of a source. A source of fewer than four bytes has ended. -/
def hexFour (s : Source) : Except Fault (Nat × Source) :=
  let fault : Except Fault (Nat × Source) :=
    .error (if Source.byteSize (s.take 4) < 4 then .ended else .malformed)
  match s with
  | some a :: some b :: some c :: some d :: rest =>
      match hexDigit? a, hexDigit? b, hexDigit? c, hexDigit? d with
      | some a, some b, some c, some d => .ok (((a * 16 + b) * 16 + c) * 16 + d, rest)
      | _, _, _, _ => fault
  | _ => fault

/-- The character that a letter after a backslash stands for. -/
def escape? : Char → Option Char
  | '"' => some '"'
  | '\\' => some '\\'
  | '/' => some '/'
  | 'b' => some '\x08'
  | 'f' => some '\x0c'
  | 'n' => some '\n'
  | 'r' => some '\r'
  | 't' => some '\t'
  | _ => none

/-- The source after the quote that closes a string, whatever its characters. -/
def skipText : (fuel : Nat) → Source → Except Fault Source
  | 0, _ => .error .ended
  | _ + 1, [] => .error .ended
  | _ + 1, some '"' :: rest => .ok rest
  | _ + 1, [some '\\'] => .error .ended
  | fuel + 1, some '\\' :: some 'u' :: rest =>
      match hexFour rest with
      | .ok (_, rest) => skipText fuel rest
      | .error f => .error f
  | fuel + 1, some '\\' :: c :: rest =>
      if (c.bind escape?).isSome then skipText fuel rest else .error .malformed
  | fuel + 1, some c :: rest => if c.toNat < 0x20 then .error .malformed else skipText fuel rest
  | fuel + 1, none :: rest => skipText fuel rest

/-- The code point that starts with the 16-bit unit `n`, and the source after it. A leading surrogate wants
a trailing one, a trailing one may not lead. -/
def codePoint (n : Nat) (s : Source) : Except Fault (Char × Source) :=
  if 0xDC00 ≤ n ∧ n ≤ 0xDFFF then .error .malformed
  else if n < 0xD800 ∨ 0xDBFF < n then .ok (Char.ofNat n, s)
  else
    match s with
    | [] => .error .ended
    | [some '\\'] => .error .ended
    | some '\\' :: some 'u' :: rest =>
        match hexFour rest with
        | .error f => .error f
        | .ok (m, rest) =>
            if m < 0xDC00 ∨ 0xDFFF < m then .error .malformed
            else .ok (Char.ofNat (0x10000 + (n - 0xD800) * 0x400 + (m - 0xDC00)), rest)
    | _ => .error .malformed

/-- The characters of a string up to the quote that closes it. -/
def readText : (fuel : Nat) → Source → Except Fault (List (Option Char))
  | 0, _ => .error .ended
  | _ + 1, [] => .error .ended
  | _ + 1, some '"' :: _ => .ok []
  | _ + 1, [some '\\'] => .error .ended
  | fuel + 1, some '\\' :: some 'u' :: rest =>
      match hexFour rest with
      | .error f => .error f
      | .ok (n, rest) =>
          match codePoint n rest with
          | .error f => .error f
          | .ok (c, rest) => (readText fuel rest).map (some c :: ·)
  | fuel + 1, some '\\' :: c :: rest =>
      match c.bind escape? with
      | some e => (readText fuel rest).map (some e :: ·)
      | none => .error .malformed
  | fuel + 1, some c :: rest =>
      if c.toNat < 0x20 then .error .malformed else (readText fuel rest).map (some c :: ·)
  | fuel + 1, none :: rest => (readText fuel rest).map (none :: ·)

/-- The string of the characters up to the closing quote; a byte of no character spoils it. -/
def contentOf (fuel : Nat) (s : Source) : Except Fault String :=
  match readText fuel s with
  | .error f => .error f
  | .ok cs =>
      match cs.mapM id with
      | some cs => .ok (String.ofList cs)
      | none => .error .malformed

/-- The string token whose quote has been read, and the source after it. -/
def textToken (fuel : Nat) (s : Source) : Token × Source :=
  match skipText fuel s with
  | .ok rest => (.text (contentOf fuel s), rest)
  | .error skip =>
      match contentOf fuel s with
      | .error read => (.brokenText read skip, [])
      | .ok _ => (.brokenText skip skip, [])

/-- The digits at the start of a source, and the source after them. -/
def digits : Source → List Nat × Source
  | some c :: rest =>
      if c.isDigit then
        let (ds, rest) := digits rest
        ((c.toNat - '0'.toNat) :: ds, rest)
      else ([], some c :: rest)
  | s => ([], s)

/-- The fault of a number that lacks a digit: a reader tells the end of the document from anything else. -/
def digitMissing (s : Source) : Token := .broken (if s.isEmpty then .ended else .malformed) .malformed

/-- Reads the exponent of a numeral, if there is one. -/
def exponentToken (negative : Bool) (whole : List Nat) (fraction : Option (List Nat)) (s : Source) :
    Token × Source :=
  match s with
  | some e :: rest =>
      if e = 'e' ∨ e = 'E' then
        let (minus, rest) := match rest with
          | some '+' :: rest => (false, rest)
          | some '-' :: rest => (true, rest)
          | _ => (false, rest)
        match digits rest with
        | ([], rest) => (digitMissing rest, [])
        | (ds, rest) => (.number ⟨negative, whole, fraction, some (minus, ds)⟩, rest)
      else (.number ⟨negative, whole, fraction, none⟩, s)
  | _ => (.number ⟨negative, whole, fraction, none⟩, s)

/-- Reads what follows the whole part of a numeral. -/
def fractionToken (negative : Bool) (whole : List Nat) (s : Source) : Token × Source :=
  match s with
  | some '.' :: rest =>
      match digits rest with
      | ([], rest) => (digitMissing rest, [])
      | (ds, rest) => exponentToken negative whole (some ds) rest
  | _ => exponentToken negative whole none s

/-- The number token after its sign. A zero is not followed by another digit. -/
def numberToken (negative : Bool) (s : Source) : Token × Source :=
  match digits s with
  | ([], rest) => (digitMissing rest, [])
  | (0 :: _ :: _, _) => (.broken .malformed .malformed, [])
  | (ds, rest) => fractionToken negative ds rest

/-- Reads the rest of a word. -/
def wordToken (word : List Char) (t : Token) (s : Source) : Token × Source :=
  match word, s with
  | [], s => (t, s)
  | _ :: _, [] => (.broken .ended .ended, [])
  | c :: word, d :: rest =>
      if d = some c then wordToken word t rest else (.broken .malformed .malformed, [])

/-- Is this white space between tokens? -/
def isGap (c : Char) : Bool := c = ' ' || c = '\n' || c = '\t' || c = '\r'

/-- The token that starts with the character `c`, and the source after it. The fuel is for strings and exceeds
the length of the source. -/
def tokenAt (fuel : Nat) (c : Char) (rest : Source) : Token × Source :=
  match c with
  | ',' => (.comma, rest)
  | ':' => (.colon, rest)
  | '[' => (.openArray, rest)
  | ']' => (.closeArray, rest)
  | '\x7b' => (.openObject, rest)
  | '\x7d' => (.closeObject, rest)
  | '"' => textToken fuel rest
  | '-' => numberToken true rest
  | 'n' => wordToken ['u', 'l', 'l'] .null rest
  | 't' => wordToken ['r', 'u', 'e'] (.bool true) rest
  | 'f' => wordToken ['a', 'l', 's', 'e'] (.bool false) rest
  | c =>
      if c.isDigit then numberToken false (some c :: rest) else (.broken .malformed .malformed, [])

def tokensWithin : (fuel : Nat) → Source → List Token
  | 0, _ => []
  | _ + 1, [] => []
  | _ + 1, none :: _ => [.broken .malformed .malformed]
  | fuel + 1, some c :: rest =>
      if isGap c then tokensWithin fuel rest
      else
        let (t, rest) := tokenAt (fuel + 1) c rest
        t :: tokensWithin fuel rest

/-- The tokens of a source. Each step takes at least one character, so the steps suffice. -/
def tokens (s : Source) : List Token := tokensWithin s.length s

end DeviceNaming.Json
