import Concord.Feature.Features

namespace Concord

structure Analysis where
  stem : String
  partOfSpeech : Option String
  features : Features
  deriving DecidableEq

structure AnalyzerError where
  token : String
  deriving DecidableEq

def AnalyzerError.message (error : AnalyzerError) : String :=
  "morphological analyzer error: no analysis for " ++ error.token

-- No analysis and an error both mean that the token could not be analyzed.
abbrev Morphology := String → Except AnalyzerError (List Analysis)

end Concord
