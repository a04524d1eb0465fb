import Concord.Json.Decode
import Concord.Json.Reader
import Concord.Morphology.Analysis
import Concord.Text.Search

namespace Concord

structure MorphemeList where
  base : Option String
  partOfSpeech : String
  morphemes : List String
  deriving DecidableEq

structure PersonMarker where
  marker : String
  person : String
  number : String

namespace MorphemeList

def presentMorphemes : List String := ["Pres", "Prog1", "Prog2", "Aor"]

def personMarkers : List PersonMarker :=
  [⟨"1sg", "1st", "Singular"⟩, ⟨"2sg", "2nd", "Singular"⟩, ⟨"3sg", "3rd", "Singular"⟩,
   ⟨"1pl", "1stPL", "Plural"⟩, ⟨"2pl", "2ndPL", "Plural"⟩, ⟨"3pl", "3rdPL", "Plural"⟩]

-- Past and future are marked inside a morpheme, the present by whole morphemes only.
def tense? (morphemes : List String) : Option String :=
  if morphemes.any (Text.contains · "Past") then some "Past"
  else if morphemes.any (Text.contains · "Fut") then some "Future"
  else if morphemes.any (presentMorphemes.contains ·) then some "Present"
  else none

def markersIn (morphemes : List String) : List PersonMarker :=
  morphemes.flatMap fun morpheme =>
    personMarkers.filter fun marker => Text.contains morpheme marker.marker

end MorphemeList

def Features.ofMorphemes (morphemes : List String) : Features :=
  let marker := (MorphemeList.markersIn morphemes).getLast?
  let features : Features := {
    person := marker.map (·.person)
    tense := MorphemeList.tense? morphemes
    number := marker.map (·.number) }
  features.orUnspecified

def MorphemeList.analysis (list : MorphemeList) (token : String) : Analysis :=
  ⟨list.base.getD token, some list.partOfSpeech, .ofMorphemes list.morphemes⟩

abbrev AnalysisTable := Std.TreeMap String (List MorphemeList)

namespace AnalysisTable

open Json

def list? (json : Json) : Option MorphemeList := do
  match ← fields? ["lemma", "pos", "morphemes"] json with
  | [base, some partOfSpeech, some morphemes] =>
    some ⟨← optional? text? base, ← text? partOfSpeech, ← listOf? text? morphemes⟩
  | _ => none

def ofText? (text : String) : Option AnalysisTable :=
  ((read? text).bind (dictionaryOf? (listOf? list?))).map fun dictionary =>
    Std.TreeMap.ofList dictionary.entries compare

def lists (table : AnalysisTable) (token : String) : Except AnalyzerError (List MorphemeList) :=
  match table[token]? with
  | some lists => .ok lists
  | none => .error ⟨token⟩

def analyze (table : AnalysisTable) : Morphology := fun token => do
  return (← table.lists token).map fun list => list.analysis token

end AnalysisTable
end Concord
