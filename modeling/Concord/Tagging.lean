import Concord.Grammar.Basic
import Concord.Morphology.Analysis

namespace Concord

def unknownSymbol : String := "??"

def Analysis.placeholder (analysis : Analysis) : Category :=
  ⟨analysis.partOfSpeech.getD unknownSymbol, analysis.features⟩

structure TaggedToken where
  tags : List Category
  unresolved : Bool
  deriving DecidableEq

namespace Grammar

def resolve? (grammar : Grammar) (analysis : Analysis) : Option (List Category) :=
  match grammar.lookup analysis.stem analysis.features with
  | [] => none
  | tags => some tags

def tagAnalysis (grammar : Grammar) (analysis : Analysis) : List Category :=
  (grammar.resolve? analysis).getD [analysis.placeholder]

def tagAnalyses (grammar : Grammar) : List Analysis → TaggedToken
  | [] => ⟨[⟨unknownSymbol, .empty⟩], true⟩
  | analyses => {
      tags := (analyses.flatMap grammar.tagAnalysis).eraseDups
      unresolved := analyses.all fun analysis => (grammar.resolve? analysis).isNone }

def tag (grammar : Grammar) (morphology : Morphology) (token : String) : TaggedToken :=
  match morphology token with
  | .ok analyses => grammar.tagAnalyses analyses
  | .error _ => grammar.tagAnalyses []

end Grammar
end Concord
