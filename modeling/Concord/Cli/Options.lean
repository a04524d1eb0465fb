namespace Concord.Cli

inductive Strategy where
  | stemmer
  | external
  deriving DecidableEq

def defaultLexicon : String := "data/lexicon.txt"

def defaultSuffixes : String := "data/suffixes.json"

def defaultAnalyses : String := "data/analyses.json"

structure Options where
  showChart : Bool := false
  strategy : Strategy := .stemmer
  lexicon : String := defaultLexicon
  suffixes : String := defaultSuffixes
  corpus : Option String := none
  derivational : Bool := true
  analyses : String := defaultAnalyses
  examples : Bool := false
  deriving DecidableEq

inductive Request where
  | help
  | run (grammar : String) (options : Options)
  deriving DecidableEq

inductive ArgumentError where
  | notEnough
  | missingValue (keyword : String)
  | unknownStrategy (name : String)
  | invalid
  | missingGrammar
  deriving DecidableEq

def usage (program : String) : String :=
  "\n".intercalate [
    "Usage: " ++ program ++ " GRAMMAR [options]",
    "",
    "Reads sentences from stdin, one per line, and prints every parse.",
    "",
    "Options:",
    "  -h, --help                 Print this message",
    "  -c, --chart                Print the parse chart (defaults to not printing)",
    "  -m, --morphology STRATEGY  `stemmer` (default) or `external`",
    "  -l, --lexicon FILE         Stem list for the stemmer (default " ++ defaultLexicon ++ ")",
    "  -s, --suffixes FILE        Suffix table for the stemmer (default " ++ defaultSuffixes ++ ")",
    "      --corpus FILE          Corpus used to rank spelling corrections",
    "      --no-derivational      Don't strip derivational suffixes",
    "  -a, --analyses FILE        Analysis table for the external strategy (default "
      ++ defaultAnalyses ++ ")",
    "  -e, --examples             Parse the built-in example sentences and exit",
    "",
    "Set RUST_LOG (e.g. RUST_LOG=kokparse=debug) to see tagging and parse logs."]

namespace ArgumentError

def cause : ArgumentError → String
  | notEnough => "not enough arguments"
  | missingValue keyword => keyword ++ " needs a value"
  | unknownStrategy name => "unknown morphology strategy " ++ name
  | invalid => "invalid arguments"
  | missingGrammar => "missing grammar file"

def message (error : ArgumentError) (program : String) : String :=
  "argument error: " ++ error.cause ++ ".\n\n" ++ usage program

end ArgumentError

def Strategy.ofName (name : String) : Except ArgumentError Strategy :=
  if name = "stemmer" then .ok .stemmer
  else if name = "external" then .ok .external
  else .error (.unknownStrategy name)

-- What an argument with a meaning of its own does: a valued one takes the next argument with
-- it, whatever that looks like.
inductive Keyword where
  | help
  | plain (change : Options → Options)
  | valued (change : String → Options → Except ArgumentError Options)

def Keyword.ofName? : String → Option Keyword
  | "-h" | "--help" => some .help
  | "-c" | "--chart" => some (.plain fun options => { options with showChart := true })
  | "-m" | "--morphology" => some (.valued fun value options => do
      return { options with strategy := ← Strategy.ofName value })
  | "-l" | "--lexicon" => some (.valued fun value options =>
      .ok { options with lexicon := value })
  | "-s" | "--suffixes" => some (.valued fun value options =>
      .ok { options with suffixes := value })
  | "--corpus" => some (.valued fun value options => .ok { options with corpus := some value })
  | "--no-derivational" => some (.plain fun options => { options with derivational := false })
  | "-a" | "--analyses" => some (.valued fun value options =>
      .ok { options with analyses := value })
  | "-e" | "--examples" => some (.plain fun options => { options with examples := true })
  | _ => none

def startsWithDash (argument : String) : Bool := argument.toList.head? = some '-'

def Request.from (grammar : Option String) (options : Options) :
    List String → Except ArgumentError Request
  | [] =>
    match grammar with
    | some path => .ok (.run path options)
    | none => .error .missingGrammar
  | argument :: rest =>
    match Keyword.ofName? argument with
    | some .help => .ok .help
    | some (.plain change) => Request.from grammar (change options) rest
    | some (.valued change) =>
      match rest with
      | [] => .error (.missingValue argument)
      | value :: rest => do Request.from grammar (← change value options) rest
    | none =>
      if grammar.isNone && !startsWithDash argument then
        Request.from (some argument) options rest
      else .error .invalid

def Request.ofArguments (arguments : List String) : Except ArgumentError Request :=
  if arguments.isEmpty then .error .notEnough else Request.from none {} arguments

end Concord.Cli
