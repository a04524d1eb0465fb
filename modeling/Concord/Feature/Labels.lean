import Concord.Feature.Features
import Concord.Text.Search

namespace Concord

namespace Labels

def personLabels : List String := ["1st", "2nd", "3rd", "1stPL", "2ndPL", "3rdPL"]

-- The plural forms stand first: a form that is the start of another must not hide it.
def personForms : List String := ["1stPL", "2ndPL", "3rdPL", "1st", "2nd", "3rd"]

def tenseForms : List String := ["Past", "Present", "Future"]

def numberForms : List String := ["Singular", "Plural"]

def markedNumbers : List String := ["Plural"]

def mentions (label : String) (forms : List String) : Bool :=
  forms.any (Text.contains label)

def lastForm? (forms labels : List String) : Option String :=
  (labels.filterMap (Text.leftmost? forms)).getLast?

end Labels

def Axis.ofLabel (label : String) : Axis :=
  if Labels.mentions label Labels.personLabels then .person
  else if Labels.mentions label Labels.tenseForms then .tense
  else if Labels.mentions label Labels.numberForms then .number
  else .other

def Features.ofCategories (labels : List String) : Features where
  person := Labels.lastForm? Labels.personForms labels
  tense := Labels.lastForm? Labels.tenseForms labels
  number := Labels.lastForm? Labels.markedNumbers labels

end Concord
