import Concord.Grammar.Basic
import Concord.Json.Decode
import Concord.Json.Reader

namespace Concord

inductive GrammarTable where
  | productions
  | terminals
  | constraints
  | implies
  deriving DecidableEq

def GrammarTable.name : GrammarTable → String
  | productions => "variables"
  | terminals => "terminals"
  | constraints => "constraints"
  | implies => "implies"

structure GrammarFile where
  start : Option String
  productions : Option (Dictionary (List (List String)))
  terminals : Option Terminals
  constraints : Option (Dictionary (List (Option (List String))))
  -- For every production the place of its head.
  implies : Option (Dictionary (List Int))

namespace GrammarFile

open Json

def ofJson? (json : Json) : Option GrammarFile := do
  match ← fields? ["start", "variables", "terminals", "constraints", "implies"] json with
  | [start, productions, terminals, constraints, implies] =>
    some {
      start := ← optional? text? start
      productions := ← optional? (dictionaryOf? (listOf? (listOf? text?))) productions
      terminals := ← optional? (dictionaryOf? (dictionaryOf? (listOf? text?))) terminals
      constraints := ← optional? (dictionaryOf? (listOf? (orNull? (listOf? text?)))) constraints
      implies := ← optional? (dictionaryOf? (listOf? integer?)) implies }
  | _ => none

def ofText? (text : String) : Option GrammarFile := read? text >>= ofJson?

end GrammarFile
end Concord
