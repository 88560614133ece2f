/-!
# Looking for a phrase in a text

`occursIn` decides whether a phrase occurs in a text, `replaceAll` replaces the occurrences that do
not overlap, from the left, and `splitAtFirst` cuts a text around the first occurrence of a
character.
-/

namespace DeviceNaming.Text

/-- Does the phrase occur in the text? The empty phrase occurs everywhere. -/
def occursInChars (phrase : List Char) : List Char → Bool
  | [] => phrase.isEmpty
  | c :: text => phrase.isPrefixOf (c :: text) || occursInChars phrase text

def occursIn (phrase text : String) : Bool := occursInChars phrase.toList text.toList

/-- Replaces a phrase of `size + 1` characters; `skip` characters of the last occurrence remain to be
passed over. -/
def replacePhrase (phrase by_ : List Char) (size : Nat) : Nat → List Char → List Char
  | _, [] => []
  | skip + 1, _ :: text => replacePhrase phrase by_ size skip text
  | 0, c :: text =>
      if phrase.isPrefixOf (c :: text) then by_ ++ replacePhrase phrase by_ size size text
      else c :: replacePhrase phrase by_ size 0 text

/-- Replaces every occurrence of `phrase` by `by_`, from the left and without overlaps. The empty phrase
occurs before each character and at the end. -/
def replaceChars (phrase by_ text : List Char) : List Char :=
  match phrase with
  | [] => by_ ++ text.flatMap fun c => c :: by_
  | _ :: tail => replacePhrase phrase by_ tail.length 0 text

def replaceAll (phrase by_ text : String) : String :=
  String.ofList (replaceChars phrase.toList by_.toList text.toList)

/-- The text before the first `sep` and the text after it. -/
def splitAtFirst (sep : Char) : List Char → Option (List Char × List Char)
  | [] => none
  | c :: text =>
      if c = sep then some ([], text)
      else (splitAtFirst sep text).map fun (head, tail) => (c :: head, tail)

end DeviceNaming.Text
