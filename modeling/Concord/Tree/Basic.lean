namespace Concord

-- The tokens from `start` up to, and without, `stop`.
structure Extent where
  start : Nat
  stop : Nat
  deriving DecidableEq

inductive Tree where
  | leaf (word : String) (extent : Extent)
  | branch (symbol : String) (extent : Extent) (children : List Tree)

namespace Tree

def extent : Tree → Extent
  | leaf _ extent => extent
  | branch _ extent _ => extent

def value : Tree → String
  | leaf word _ => word
  | branch symbol _ _ => symbol

def isLeaf : Tree → Bool
  | leaf _ _ => true
  | branch _ _ _ => false

def children : Tree → List Tree
  | leaf _ _ => []
  | branch _ _ children => children

mutual

def leaves : Tree → List String
  | leaf word _ => [word]
  | branch _ _ children => leavesOfAll children

def leavesOfAll : List Tree → List String
  | [] => []
  | tree :: rest => leaves tree ++ leavesOfAll rest

end

mutual

def decideEq : (a b : Tree) → Decidable (a = b)
  | leaf word extent, leaf word' extent' =>
    if same : word = word' ∧ extent = extent' then isTrue (by rw [same.1, same.2])
    else isFalse fun equal => same (by cases equal; exact ⟨rfl, rfl⟩)
  | branch symbol extent children, branch symbol' extent' children' =>
    if same : symbol = symbol' ∧ extent = extent' then
      match decideEqAll children children' with
      | isTrue equal => isTrue (by rw [same.1, same.2, equal])
      | isFalse differ => isFalse fun equal => differ (by cases equal; rfl)
    else isFalse fun equal => same (by cases equal; exact ⟨rfl, rfl⟩)
  | leaf _ _, branch _ _ _ => isFalse nofun
  | branch _ _ _, leaf _ _ => isFalse nofun

def decideEqAll : (as bs : List Tree) → Decidable (as = bs)
  | [], [] => isTrue rfl
  | a :: as, b :: bs =>
    match decideEq a b, decideEqAll as bs with
    | isTrue head, isTrue tail => isTrue (by rw [head, tail])
    | isFalse differ, _ => isFalse fun equal => differ (by cases equal; rfl)
    | _, isFalse differ => isFalse fun equal => differ (by cases equal; rfl)
  | [], _ :: _ => isFalse nofun
  | _ :: _, [] => isFalse nofun

end

instance : DecidableEq Tree := decideEq

end Tree
end Concord
