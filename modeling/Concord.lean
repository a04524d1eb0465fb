import Concord.Chart.Basic
import Concord.Chart.Fill
import Concord.Chart.Node
import Concord.Chart.Slot
import Concord.Chart.Table
import Concord.Chart.Trees
import Concord.Cli.Options
import Concord.Cli.Run
import Concord.Cli.Session
import Concord.Dictionary
import Concord.Feature.Axis
import Concord.Feature.Category
import Concord.Feature.Features
import Concord.Feature.Labels
import Concord.Grammar.Basic
import Concord.Grammar.File
import Concord.Grammar.Index
import Concord.Grammar.Load
import Concord.Grammar.Rule
import Concord.Json.Decode
import Concord.Json.Number
import Concord.Json.Reader
import Concord.Json.Text
import Concord.Json.Value
import Concord.Main
import Concord.Morphology.Analysis
import Concord.Morphology.Lexicon
import Concord.Morphology.Morphemes
import Concord.Morphology.Spelling
import Concord.Morphology.Stemmer
import Concord.Morphology.Suffix
import Concord.Parsing
import Concord.Proofs.Chart.Additions
import Concord.Proofs.Chart.Cells
import Concord.Proofs.Chart.Checked
import Concord.Proofs.Chart.Closing
import Concord.Proofs.Chart.Columns
import Concord.Proofs.Chart.Derivable
import Concord.Proofs.Chart.Equations
import Concord.Proofs.Chart.Extraction
import Concord.Proofs.Chart.Filled
import Concord.Proofs.Chart.Filling
import Concord.Proofs.Chart.FirstWins
import Concord.Proofs.Chart.Forest
import Concord.Proofs.Chart.Growth
import Concord.Proofs.Chart.Layout
import Concord.Proofs.Chart.Lifting
import Concord.Proofs.Chart.Mirror
import Concord.Proofs.Chart.Monotone
import Concord.Proofs.Chart.Numbering
import Concord.Proofs.Chart.Percolation
import Concord.Proofs.Chart.Precedence
import Concord.Proofs.Chart.Relevance
import Concord.Proofs.Chart.Rows
import Concord.Proofs.Chart.Safety
import Concord.Proofs.Chart.Simulation
import Concord.Proofs.Chart.Slots
import Concord.Proofs.Chart.Support
import Concord.Proofs.Chart.Table
import Concord.Proofs.Chart.Triangle
import Concord.Proofs.Chart.Window
import Concord.Proofs.Cli.Answer
import Concord.Proofs.Cli.Arguments
import Concord.Proofs.Cli.Groups
import Concord.Proofs.Cli.Session
import Concord.Proofs.Dictionary
import Concord.Proofs.Except
import Concord.Proofs.Feature.Agreement
import Concord.Proofs.Feature.Classification
import Concord.Proofs.Feature.Labels
import Concord.Proofs.Feature.Order
import Concord.Proofs.Feature.Overlay
import Concord.Proofs.FirstOccurrences
import Concord.Proofs.Grammar.Indexes
import Concord.Proofs.Grammar.Loading
import Concord.Proofs.Grammar.Lookup
import Concord.Proofs.Grammar.Reading
import Concord.Proofs.Grammar.Rules
import Concord.Proofs.Grammar.Scan
import Concord.Proofs.Grammar.WellFormed
import Concord.Proofs.Json.MemberOrder
import Concord.Proofs.Json.Reordering
import Concord.Proofs.Morphology.Correction
import Concord.Proofs.Morphology.Counting
import Concord.Proofs.Morphology.Derivational
import Concord.Proofs.Morphology.Distance
import Concord.Proofs.Morphology.Inflection
import Concord.Proofs.Morphology.Marking
import Concord.Proofs.Morphology.Neighbourhood
import Concord.Proofs.Morphology.Slips
import Concord.Proofs.Morphology.Stemming
import Concord.Proofs.Morphology.SuffixTable
import Concord.Proofs.Morphology.Suffixes
import Concord.Proofs.Morphology.Vocabulary
import Concord.Proofs.Parsing.DistinctTrees
import Concord.Proofs.Parsing.Tagging
import Concord.Proofs.Parsing.UnknownWords
import Concord.Proofs.Text.Lines
import Concord.Proofs.Text.Places
import Concord.Proofs.Text.Runs
import Concord.Proofs.Text.Search
import Concord.Proofs.Text.Tokens
import Concord.Proofs.Text.Trimming
import Concord.Proofs.Text.Turkish
import Concord.Proofs.Tree.Bracketed
import Concord.Proofs.Tree.Outline
import Concord.Proofs.Tree.Values
import Concord.Proofs.Unicode.Classes
import Concord.Proofs.Unicode.Lowercase
import Concord.Tagging
import Concord.Text.Lines
import Concord.Text.Runs
import Concord.Text.Search
import Concord.Text.Turkish
import Concord.Text.Words
import Concord.Tree.Basic
import Concord.Tree.Render
import Concord.Unicode.Alphabetic
import Concord.Unicode.Class
import Concord.Unicode.Lowercase
import Concord.Unicode.Mark
import Concord.Unicode.Number
import Concord.Unicode.Ranges
