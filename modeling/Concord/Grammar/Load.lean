import Concord.Grammar.File

namespace Concord

inductive GrammarError where
  | malformed
  | missing (table : GrammarTable)
  | noProductions
  | undeclared (table : GrammarTable) (symbol : String)
  | unlisted (table : GrammarTable) (symbol : String)
  | countMismatch (table : GrammarTable) (symbol : String) (productions listed : Nat)
  | productionSize (symbol : String) (index size : Nat)
  | headIndex (symbol : String) (index : Nat) (head : Int)
  | unknownAxis (symbol : String) (index : Nat) (unknown : UnknownAxis)
  | unaryAgreement (symbol : String) (production : Production)
  | undefinedStart (symbol : String)
  deriving DecidableEq

namespace GrammarError

def entriesName : GrammarTable → String
  | .constraints => "constraint lists"
  | table => table.name ++ " entries"

def place (symbol : String) (index : Nat) : String :=
  symbol ++ " production " ++ toString index

def cause : GrammarError → String
  | malformed => "malformed JSON"
  | missing table => "missing `" ++ table.name ++ "`"
  | noProductions => "empty ruleset"
  | undeclared table symbol => table.name ++ " for undeclared nonterminal " ++ symbol
  | unlisted table symbol => "no " ++ table.name ++ " for nonterminal " ++ symbol
  | countMismatch table symbol productions listed =>
    symbol ++ " has " ++ toString productions ++ " productions but " ++ toString listed ++ " "
      ++ entriesName table
  | productionSize symbol index size =>
    place symbol index ++ " has " ++ toString size ++ " symbols, expected 1 or 2"
  | headIndex symbol index head =>
    place symbol index ++ " has head index " ++ toString head ++ ", expected 0 or 1"
  | unknownAxis symbol index unknown => place symbol index ++ ": " ++ unknown.message
  | unaryAgreement symbol production =>
    "unary production " ++ symbol ++ " -> " ++ production.render
      ++ " can't have constraints or a head other than 0"
  | undefinedStart symbol => "start symbol " ++ symbol ++ " is never defined"

def message (error : GrammarError) : String := "grammar format error: " ++ error.cause

end GrammarError

def defaultStart : String := "S"

namespace GrammarFile

def readProduction (symbol : String) (index : Nat) : List String → Except GrammarError Production
  | [child] => .ok (.unary child)
  | [left, right] => .ok (.binary left right)
  | symbols => .error (.productionSize symbol index symbols.length)

def readHead (symbol : String) (index : Nat) (head : Int) : Except GrammarError Nat :=
  if head = 0 then .ok 0
  else if head = 1 then .ok 1
  else .error (.headIndex symbol index head)

def readAxes (symbol : String) (index : Nat) (names : List String) :
    Except GrammarError (List Axis) :=
  (names.mapM Axis.ofName).mapError (.unknownAxis symbol index)

-- A unary rule has one child: there is nothing to agree on and no other head to take.
def readRule (symbol : String) (index : Nat) (symbols : List String)
    (names : Option (List String)) (head : Int) : Except GrammarError Rule := do
  let production ← readProduction symbol index symbols
  let head ← readHead symbol index head
  let constraints ← readAxes symbol index (names.getD [])
  if symbols.length = 1 ∧ (head ≠ 0 ∨ constraints ≠ []) then
    .error (.unaryAgreement symbol production)
  else .ok ⟨symbol, index, production, constraints, head⟩

def listed {α : Type} (table : GrammarTable) (entries : Dictionary (List α))
    (symbol : String) (productions : Nat) : Except GrammarError (List α) :=
  match entries.find? symbol with
  | none => .error (.unlisted table symbol)
  | some list =>
    if list.length = productions then .ok list
    else .error (.countMismatch table symbol productions list.length)

def headsOf (implies : Option (Dictionary (List Int))) (symbol : String)
    (productions : Nat) : Except GrammarError (List Int) :=
  match implies with
  | none => .ok (List.replicate productions 0)
  | some table => listed .implies table symbol productions

def rulesOf (constraints : Dictionary (List (Option (List String))))
    (implies : Option (Dictionary (List Int))) (symbol : String)
    (bodies : List (List String)) : Except GrammarError (List Rule) := do
  let names ← listed .constraints constraints symbol bodies.length
  let heads ← headsOf implies symbol bodies.length
  (bodies.zip (names.zip heads)).zipIdx.mapM fun ((symbols, names, head), index) =>
    readRule symbol index symbols names head

def required {α : Type} (table : GrammarTable) (entries : Option α) : Except GrammarError α :=
  match entries with
  | some entries => .ok entries
  | none => .error (.missing table)

def nonEmpty (productions : Dictionary (List (List String))) : Except GrammarError Unit :=
  if productions.isEmpty then .error .noProductions else .ok ()

def onlyDeclared (table : GrammarTable) (symbols : List String)
    (productions : Dictionary (List (List String))) : Except GrammarError Unit :=
  match symbols.find? fun symbol => !productions.contains symbol with
  | some symbol => .error (.undeclared table symbol)
  | none => .ok ()

-- A grammar is loaded whole or not at all, and the first fault in the order of the checks is the one
-- reported.
def toGrammar (file : GrammarFile) : Except GrammarError Grammar := do
  let productions ← required .productions file.productions
  let terminals ← required .terminals file.terminals
  let constraints ← required .constraints file.constraints
  nonEmpty productions
  onlyDeclared .constraints constraints.keys productions
  onlyDeclared .implies (file.implies.elim [] Dictionary.keys) productions
  let rules ← productions.entries.mapM fun (symbol, bodies) =>
    rulesOf constraints file.implies symbol bodies
  let start := file.start.getD defaultStart
  if productions.contains start || terminals.contains start then
    .ok { start, terminals, rules := rules.flatten }
  else .error (.undefinedStart start)

end GrammarFile

def Grammar.ofText (text : String) : Except GrammarError Grammar :=
  match GrammarFile.ofText? text with
  | some file => file.toGrammar
  | none => .error .malformed

end Concord
