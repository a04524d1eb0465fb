import Concord.Tree.Basic

namespace Concord.Tree

mutual

def values : Tree → List String
  | leaf word _ => [word]
  | branch symbol _ children => symbol :: valuesOfAll children

def valuesOfAll : List Tree → List String
  | [] => []
  | tree :: rest => values tree ++ valuesOfAll rest

end

mutual

def bare : Tree → Tree
  | leaf word _ => leaf word ⟨0, 0⟩
  | branch symbol _ children => branch symbol ⟨0, 0⟩ (bareAll children)

def bareAll : List Tree → List Tree
  | [] => []
  | tree :: rest => bare tree :: bareAll rest

end

end Concord.Tree
