import Concord.Chart.Fill
import Concord.Chart.Trees
import Concord.Tagging

namespace Concord

structure Parse where
  tokens : List String
  tags : List (List Category)
  unresolved : List Nat
  chart : Chart
  trees : List Tree

namespace Parse

def isGrammatical (parse : Parse) : Bool := !parse.trees.isEmpty

-- Constituents that differ in their features only may have the same tree.
def distinctTrees (parse : Parse) : List Tree := parse.trees.eraseDups

def unknownWords (parse : Parse) : List String :=
  parse.unresolved.filterMap (parse.tokens[·]?)

end Parse

def Grammar.parseTagged (grammar : Grammar) (tokens : List String) (tags : List (List Category)) :
    Except ChartError (List Tree) := do
  (← grammar.chart tokens tags).trees grammar.start

structure Parser where
  grammar : Grammar
  morphology : Morphology

namespace Parser

def tag (parser : Parser) (tokens : List String) : List TaggedToken :=
  tokens.map (parser.grammar.tag parser.morphology)

def parse (parser : Parser) (tokens : List String) : Except ChartError Parse := do
  let tagged := parser.tag tokens
  let tags := tagged.map (·.tags)
  let chart ← parser.grammar.chart tokens tags
  return {
    tokens, tags, chart
    unresolved := (tagged.zipIdx.filter (·.1.unresolved)).map (·.2)
    trees := ← chart.trees parser.grammar.start }

end Parser
end Concord
