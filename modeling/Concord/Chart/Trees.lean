import Concord.Chart.Basic
import Concord.Tree.Basic

namespace Concord.Chart

-- A path down from a node meets no node twice unless it runs in a circle, so one step more than
-- there are nodes is enough.
def treeWithin (chart : Chart) : Nat → Nat → Except ChartError Tree
  | 0, index => .error (.cyclic index)
  | depth + 1, index => do
    let node ← chart.node index
    let extent : Extent := ⟨node.first, node.last + 1⟩
    match node.origin with
    | .word text => return .branch node.category.symbol extent [.leaf text extent]
    | .unary child =>
      return .branch node.category.symbol extent [← chart.treeWithin depth child]
    | .binary left right =>
      return .branch node.category.symbol extent
        [← chart.treeWithin depth left, ← chart.treeWithin depth right]

def tree (chart : Chart) (index : Nat) : Except ChartError Tree :=
  chart.treeWithin (chart.nodes.size + 1) index

def trees (chart : Chart) (symbol : String) : Except ChartError (List Tree) := do
  (← chart.roots symbol).mapM chart.tree

end Concord.Chart
