import Concord.Cli.Session
import Concord.Grammar.Load
import Concord.Morphology.Morphemes
import Concord.Morphology.Stemmer

namespace Concord.Cli

inductive LoadError where
  | unreadable (path : String)
  | unreadableCorpus (path : String)
  | grammar (error : GrammarError)
  | suffixes (error : SuffixError)
  | malformedAnalyses
  deriving DecidableEq

def LoadError.kind : LoadError → String
  | unreadable _ => "Io"
  | unreadableCorpus _ => "Os"
  | grammar _ => "GrammarFormat"
  | suffixes .malformed => "Json"
  | suffixes (.emptySuffix _) => "SuffixFormat"
  | malformedAnalyses => "Json"

structure Outcome where
  code : UInt32
  stdout : String
  stderr : String
  deriving DecidableEq

namespace Outcome

def helped (program : String) : Outcome := ⟨0, usage program ++ "\n", ""⟩

def misused (program : String) (error : ArgumentError) : Outcome :=
  ⟨255, "", error.message program ++ "\n"⟩

def failed (error : LoadError) : Outcome := ⟨1, "", "Error: " ++ error.kind⟩

-- A chart that contradicts itself would be a fault of the program.
def finished : Except ChartError String → Outcome
  | .ok text => ⟨0, text, ""⟩
  | .error error => ⟨101, "", error.message⟩

end Outcome

section Loading

variable {m : Type → Type} [Monad m] (read : String → m (Option String))

def readFile (error : LoadError) (path : String) : ExceptT LoadError m String := do
  match ← (read path : m (Option String)) with
  | some text => return text
  | none => throw error

def loadStemmer (options : Options) : ExceptT LoadError m Morphology := do
  let stems ← readFile read (.unreadable options.lexicon) options.lexicon
  let lexicon := Lexicon.ofText stems
  let lexicon ← match options.corpus with
    | some path => lexicon.countCorpus <$> readFile read (.unreadableCorpus path) path
    | none => pure lexicon
  let text ← readFile read (.unreadable options.suffixes) options.suffixes
  match SuffixTable.ofText text options.derivational with
  | .ok suffixes => return Stemmer.analyze ⟨lexicon, suffixes⟩
  | .error error => throw (.suffixes error)

def loadAnalyses (options : Options) : ExceptT LoadError m Morphology := do
  let text ← readFile read (.unreadable options.analyses) options.analyses
  match AnalysisTable.ofText? text with
  | some table => return table.analyze
  | none => throw .malformedAnalyses

def loadMorphology (options : Options) : ExceptT LoadError m Morphology :=
  match options.strategy with
  | .stemmer => loadStemmer read options
  | .external => loadAnalyses read options

def loadParser (path : String) (options : Options) : ExceptT LoadError m Parser := do
  let text ← readFile read (.unreadable path) path
  match Grammar.ofText text with
  | .ok grammar => return ⟨grammar, ← loadMorphology read options⟩
  | .error error => throw (.grammar error)

end Loading

inductive Start where
  | settled (outcome : Outcome)
  | sentences (parser : Parser) (showChart : Bool)

def start {m : Type → Type} [Monad m] (read : String → m (Option String)) (program : String)
    (arguments : List String) : m Start := do
  match Request.ofArguments arguments with
  | .error error => return .settled (.misused program error)
  | .ok .help => return .settled (.helped program)
  | .ok (.run path options) =>
    match ← (loadParser read path options).run with
    | .error error => return .settled (.failed error)
    | .ok parser =>
      if options.examples then
        return .settled (.finished (answerExamples parser options.showChart))
      else return .sentences parser options.showChart

def Start.outcome (start : Start) (input : String) : Outcome :=
  match start with
  | settled outcome => outcome
  | sentences parser showChart => .finished (transcript parser showChart input)

end Concord.Cli
