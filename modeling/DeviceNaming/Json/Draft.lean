import DeviceNaming.Json.Token

/-!
# Drafts of a document

A draft is the tree of a document as far as its tokens go. It never fails: where the text is over or
goes wrong, the tree says so in that place (`Draft.broken`, `Ending.broken`), and who walks the draft in
the order of the text meets the first problem first. `Draft.ofTokens` builds it and gives the tokens that
follow.

`Draft.skipFault?` passes over a value of no interest and finds the first fault that passing over meets;
`none` says that the value is well formed.
-/

namespace DeviceNaming.Json

/-- How a list of items or members ends: by its bracket, or broken off. -/
inductive Ending where
  | closed
  | broken (read skip : Fault)
deriving DecidableEq, Repr

inductive Draft where
  | null
  | bool (b : Bool)
  | number (n : Numeral)
  | text (content : Except Fault String)
  | array (items : List Draft) (ending : Ending)
  | object (members : List (Except Fault String × Draft)) (ending : Ending)
  /-- no value stands here -/
  | broken (read skip : Fault)

namespace Draft

/-- The text is over where a value should be. -/
def ended : Draft := .broken .ended .ended

/-- Something else stands where a value should be. -/
def malformed : Draft := .broken .malformed .malformed

mutual

/-- The value at the start of the tokens, and the tokens after it. -/
def value : (fuel : Nat) → List Token → Draft × List Token
  | 0, _ => (ended, [])
  | fuel + 1, ts =>
      match ts with
      | [] => (ended, [])
      | .null :: rest => (.null, rest)
      | .bool b :: rest => (.bool b, rest)
      | .number n :: rest => (.number n, rest)
      | .text c :: rest => (.text c, rest)
      | .openArray :: rest =>
          let (items, ending, rest) := firstItem fuel rest
          (.array items ending, rest)
      | .openObject :: rest =>
          let (members, ending, rest) := firstMember fuel rest
          (.object members ending, rest)
      | .broken r s :: _ => (.broken r s, [])
      | .brokenText r s :: _ => (.broken r s, [])
      | _ :: _ => (malformed, [])

/-- The items of an array after its bracket. -/
def firstItem : (fuel : Nat) → List Token → List Draft × Ending × List Token
  | 0, _ => ([], .broken .ended .ended, [])
  | fuel + 1, ts =>
      match ts with
      | [] => ([], .broken .ended .ended, [])
      | .closeArray :: rest => ([], .closed, rest)
      | ts =>
          let (v, rest) := value fuel ts
          let (items, ending, rest) := moreItems fuel rest
          (v :: items, ending, rest)

/-- The items of an array after an item. -/
def moreItems : (fuel : Nat) → List Token → List Draft × Ending × List Token
  | 0, _ => ([], .broken .ended .ended, [])
  | fuel + 1, ts =>
      match ts with
      | [] => ([], .broken .ended .ended, [])
      | .closeArray :: rest => ([], .closed, rest)
      | .comma :: rest =>
          let (v, rest) := value fuel rest
          let (items, ending, rest) := moreItems fuel rest
          (v :: items, ending, rest)
      | _ :: _ => ([], .broken .malformed .malformed, [])

/-- The members of an object after its bracket. -/
def firstMember : (fuel : Nat) → List Token →
    List (Except Fault String × Draft) × Ending × List Token
  | 0, _ => ([], .broken .ended .ended, [])
  | fuel + 1, ts =>
      match ts with
      | .closeObject :: rest => ([], .closed, rest)
      | ts => member fuel ts

/-- The members of an object from a key on. -/
def member : (fuel : Nat) → List Token →
    List (Except Fault String × Draft) × Ending × List Token
  | 0, _ => ([], .broken .ended .ended, [])
  | fuel + 1, ts =>
      match ts with
      | [] => ([], .broken .ended .ended, [])
      | .text key :: .colon :: rest =>
          let (v, rest) := value fuel rest
          let (members, ending, rest) := moreMembers fuel rest
          ((key, v) :: members, ending, rest)
      | [.text key] => ([(key, ended)], .broken .ended .ended, [])
      | .text key :: _ :: _ => ([(key, malformed)], .broken .malformed .malformed, [])
      | .brokenText r s :: _ => ([], .broken r s, [])
      | _ :: _ => ([], .broken .malformed .malformed, [])

/-- The members of an object after a member. -/
def moreMembers : (fuel : Nat) → List Token →
    List (Except Fault String × Draft) × Ending × List Token
  | 0, _ => ([], .broken .ended .ended, [])
  | fuel + 1, ts =>
      match ts with
      | [] => ([], .broken .ended .ended, [])
      | .closeObject :: rest => ([], .closed, rest)
      | .comma :: rest => member fuel rest
      | _ :: _ => ([], .broken .malformed .malformed, [])

end

/-- The value at the start of the tokens, and the tokens after it. A value takes at most three steps for
each of its tokens. -/
def ofTokens (ts : List Token) : Draft × List Token := value (3 * ts.length + 3) ts

mutual

/-- The first fault met by passing over a value. -/
def skipFault? : Draft → Option Fault
  | .null | .bool _ | .number _ | .text _ => none
  | .array items ending => skipItems items ending
  | .object members ending => skipMembers members ending
  | .broken _ skip => some skip

/-- The first fault met by passing over the items of an array. -/
def skipItems : List Draft → Ending → Option Fault
  | [], .closed => none
  | [], .broken _ skip => some skip
  | v :: items, ending =>
      match skipFault? v with
      | some f => some f
      | none => skipItems items ending

/-- The first fault met by passing over the members of an object. -/
def skipMembers : List (Except Fault String × Draft) → Ending → Option Fault
  | [], .closed => none
  | [], .broken _ skip => some skip
  | (_, v) :: members, ending =>
      match skipFault? v with
      | some f => some f
      | none => skipMembers members ending

end

end Draft

end DeviceNaming.Json
