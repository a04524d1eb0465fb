import Concord.Feature.Labels
import Concord.Morphology.Analysis
import Concord.Morphology.Lexicon
import Concord.Morphology.Suffix

namespace Concord

structure Stemmer where
  lexicon : Lexicon
  suffixes : SuffixTable

structure Stem where
  text : String
  categories : List String
  deriving DecidableEq

namespace Stemmer

-- It never looks back: what the longest suffix leaves is all that shorter ones are tried on.
def stem (stemmer : Stemmer) (token : String) : Stem :=
  if stemmer.lexicon.contains token then ⟨token, []⟩
  else match stemmer.lexicon.correct? token with
    | some corrected => ⟨corrected, []⟩
    | none => match _ : stemmer.suffixes.strip? token with
      | some (suffix, rest) =>
        let inner := stemmer.stem rest
        ⟨inner.text, suffix.category :: inner.categories⟩
      | none => ⟨token, []⟩
termination_by token.length
decreasing_by exact SuffixTable.strip?_length (by assumption)

def stemSentence (stemmer : Stemmer) (sentence : String) : List Stem :=
  (Text.pieces sentence).map stemmer.stem

def analyze (stemmer : Stemmer) : Morphology := fun token =>
  let stem := stemmer.stem token
  .ok [⟨stem.text, none, .ofCategories stem.categories⟩]

end Stemmer
end Concord
