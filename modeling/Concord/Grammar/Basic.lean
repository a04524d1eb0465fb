import Concord.Dictionary
import Concord.Feature.Category
import Concord.Feature.Labels
import Concord.Grammar.Index
import Concord.Grammar.Rule

namespace Concord

-- Category symbol, then subcategory label, then word forms.
abbrev Terminals := Dictionary (Dictionary (List String))

structure Entry where
  symbol : String
  label : String
  word : String
  deriving DecidableEq

def Terminals.allEntries (terminals : Terminals) : List Entry :=
  terminals.entries.flatMap fun (symbol, labels) =>
    labels.entries.flatMap fun (label, words) =>
      words.map fun word => ⟨symbol, label, word⟩

def Entry.category (entry : Entry) (derived : Features) : Category :=
  ⟨entry.symbol, (Features.empty.insert (.ofLabel entry.label) entry.label).overlay derived⟩

namespace Rule

def symbolKey (rule : Rule) : Option String := some rule.symbol

def pairKey (rule : Rule) : Option (String × String) :=
  match rule.production with
  | .binary left right => some (left, right)
  | .unary _ => none

def childKey (rule : Rule) : Option String :=
  match rule.production with
  | .unary child => some child
  | .binary _ _ => none

end Rule

def pairOrder : String × String → String × String → Ordering :=
  compareLex (compareOn Prod.fst) (compareOn Prod.snd)

-- The equations make sure that no grammar carries any indexes but its own.
structure Grammar where
  start : String
  rules : List Rule
  terminals : Terminals
  bySymbol : Index String Rule compare := .of compare Rule.symbolKey rules
  byPair : Index (String × String) Rule pairOrder := .of pairOrder Rule.pairKey rules
  byChild : Index String Rule compare := .of compare Rule.childKey rules
  byWord : Index String Entry compare :=
    .of compare (fun entry => some entry.word) terminals.allEntries
  bySymbol_eq : bySymbol = .of compare Rule.symbolKey rules := by rfl
  byPair_eq : byPair = .of pairOrder Rule.pairKey rules := by rfl
  byChild_eq : byChild = .of compare Rule.childKey rules := by rfl
  byWord_eq : byWord = .of compare (fun entry => some entry.word) terminals.allEntries := by rfl

namespace Grammar

def rulesFor (grammar : Grammar) (symbol : String) : List Rule := grammar.bySymbol.find symbol

def binaryRules (grammar : Grammar) (left right : String) : List Rule :=
  grammar.byPair.find (left, right)

def unaryRules (grammar : Grammar) (child : String) : List Rule := grammar.byChild.find child

def nonterminals (grammar : Grammar) : List String := grammar.bySymbol.keys

def categories (grammar : Grammar) : List String := grammar.terminals.keys

def combine (grammar : Grammar) (left right : Category) : List (Rule × Features) :=
  (grammar.binaryRules left.symbol right.symbol).filterMap fun rule =>
    (rule.project left.features right.features).map fun features => (rule, features)

def lookup (grammar : Grammar) (stem : String) (derived : Features) : List Category :=
  ((grammar.byWord.find stem).map fun entry => entry.category derived).eraseDups

def render (grammar : Grammar) : String :=
  "//** start: " ++ grammar.start ++ "\n" ++
  "//** nonterminals:" ++ String.join (grammar.nonterminals.map (" " ++ ·)) ++ "\n" ++
  "//** categories:" ++ String.join (grammar.categories.map (" " ++ ·)) ++ "\n" ++
  String.join (grammar.rules.map (·.render ++ "\n"))

end Grammar
end Concord
