import Concord.Feature.Features

namespace Concord

inductive Production where
  | unary (child : String)
  | binary (left right : String)
  deriving DecidableEq

def Production.symbols : Production → List String
  | .unary child => [child]
  | .binary left right => [left, right]

def Production.render (production : Production) : String :=
  " ".intercalate production.symbols

structure Rule where
  symbol : String
  index : Nat
  production : Production
  constraints : List Axis
  -- The child whose features the parent gets: 0 is the left one.
  head : Nat
  deriving DecidableEq

namespace Rule

-- The head's features are taken as they are, never merged with those of the other child.
def project (rule : Rule) (left right : Features) : Option Features :=
  if left.agree right rule.constraints then
    some (if rule.head = 0 then left else right)
  else none

def render (rule : Rule) : String :=
  let agreement :=
    if rule.constraints.isEmpty then ""
    else " [" ++ ", ".intercalate (rule.constraints.map Axis.name) ++ "]"
  rule.symbol ++ " -> " ++ rule.production.render ++ agreement ++ " @" ++ toString rule.head

end Rule
end Concord
