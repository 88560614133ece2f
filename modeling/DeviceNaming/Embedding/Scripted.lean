import DeviceNaming.Embedding.Provider
import DeviceNaming.Text.Search

/-!
# Scripted providers

Providers with known answers, for trying a resolver out. All of them answer by the text alone.
-/

namespace DeviceNaming

namespace Provider

/-- The words that `keywords` knows. -/
def knownKeywords : List String :=
  ["lamp", "light", "office", "kitchen", "fan", "lounge", "bedroom", "door"]

/-- One component for each known word: 1 if it occurs in the text and 0 otherwise. -/
def keywordVector (text : String) : Embedding :=
  knownKeywords.map fun k => if Text.occursIn k text then .one else .zero

/-- The text after the replacement of each phrase by its keyword, in order. -/
def replaceSynonyms (synonyms : List (String × String)) (text : String) : String :=
  synonyms.foldl (fun t (phrase, keyword) => Text.replaceAll phrase keyword t) text

/-- Marks the known words of a text, after the replacement of synonyms. -/
def keywords (synonyms : List (String × String)) : Provider :=
  ofText knownKeywords.length fun text =>
    ⟨0, .ok (keywordVector (replaceSynonyms synonyms text))⟩

def failing : Provider := ofText knownKeywords.length fun _ =>
  ⟨0, .error (.provider "model offline")⟩

/-- Marks the known words of a text after a while. -/
def slow (delay : Nat) : Provider :=
  ofText knownKeywords.length fun text => ⟨delay, .ok (keywordVector text)⟩

/-- Has an answer for each text of a table, and one for all others. -/
def table (dimension : Nat) (answers : List (String × Reply)) (otherwise : Reply) : Provider :=
  ofText dimension fun text => (answers.lookup text).getD otherwise

/-- Counts the characters of a text by their code point modulo the dimension. -/
def counts (dimension delay : Nat) : Provider :=
  ofText dimension fun text =>
    ⟨delay, .ok ((List.range dimension).map fun i =>
      Binary32.ofNat (text.toList.countP fun c => c.toNat % dimension == i))⟩

end Provider

end DeviceNaming
