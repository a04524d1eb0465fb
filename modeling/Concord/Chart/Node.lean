import Concord.Feature.Category
import Std.Data.TreeSet

namespace Concord

inductive Origin where
  | word (text : String)
  | unary (child : Nat)
  | binary (left right : Nat)
  deriving DecidableEq

structure Node where
  category : Category
  first : Nat
  last : Nat
  origin : Origin
  deriving DecidableEq

-- What no two nodes of one chart share: the span and the category found over it.
structure Key where
  first : Nat
  last : Nat
  category : Category
  deriving DecidableEq

def Key.order : Key → Key → Ordering :=
  compareLex (compareOn Key.first) (compareLex (compareOn Key.last)
    (compareLex (compareOn (·.category.symbol)) (compareOn (·.category.features))))

abbrev Memo := Std.TreeSet Key Key.order

namespace Node

def key (node : Node) : Key := ⟨node.first, node.last, node.category⟩

def token (category : Category) (text : String) (position : Nat) : Node :=
  ⟨category, position, position, .word text⟩

def text? (node : Node) : Option String :=
  match node.origin with
  | .word text => some text
  | _ => none

def isTerminal (node : Node) : Bool := node.text?.isSome

def children (node : Node) : List Nat :=
  match node.origin with
  | .word _ => []
  | .unary child => [child]
  | .binary left right => [left, right]

def render (node : Node) : String :=
  toString node.first ++ ".." ++ toString node.last ++ ": " ++ node.category.render

end Node
end Concord
