import Concord.Chart.Node
import Concord.Chart.Slot

namespace Concord

inductive ChartError where
  | outside (first last size : Nat)
  | noNode (index : Nat)
  | cyclic (index : Nat)
  deriving DecidableEq

def ChartError.message : ChartError → String
  | outside first last size =>
    "span " ++ toString first ++ ".." ++ toString last ++ " outside chart of " ++ toString size
  | noNode index => "no node " ++ toString index
  | cyclic index => "node " ++ toString index ++ " contains itself"

-- Constituents in the order in which they were found. The cells file their places by span, and the memo
-- has their keys; neither says anything that the constituents do not say.
structure Chart where
  words : Array String
  nodes : Array Node
  cells : Array (Array Nat)
  memo : Memo
  cells_size : cells.size = Chart.cellCount words.size

namespace Chart

def empty (words : List String) : Chart where
  words := words.toArray
  nodes := #[]
  cells := Array.replicate (cellCount words.toArray.size) #[]
  memo := ∅
  cells_size := Array.size_replicate

def size (chart : Chart) : Nat := chart.words.size

def cell (chart : Chart) (first last : Nat) : Except ChartError (Array Nat) :=
  if inside : first ≤ last ∧ last < chart.size then
    have bound : slot chart.size first last < chart.cells.size :=
      chart.cells_size ▸ slot_lt inside
    .ok chart.cells[slot chart.size first last]
  else .error (.outside first last chart.size)

def node (chart : Chart) (index : Nat) : Except ChartError Node :=
  match chart.nodes[index]? with
  | some node => .ok node
  | none => .error (.noNode index)

def entriesAt (chart : Chart) (first last : Nat) : Except ChartError (List (Nat × Node)) := do
  (← chart.cell first last).toList.mapM fun index => do return (index, ← chart.node index)

def nodesAt (chart : Chart) (first last : Nat) : Except ChartError (List Node) := do
  return (← chart.entriesAt first last).map (·.2)

def symbolsAt (chart : Chart) (first last : Nat) : Except ChartError (List String) := do
  return ((← chart.nodesAt first last).map (·.category.symbol)).eraseDups

def push (chart : Chart) (node : Node) : Chart where
  words := chart.words
  nodes := chart.nodes.push node
  cells := chart.cells.modify (slot chart.size node.first node.last) (·.push chart.nodes.size)
  memo := chart.memo.insert node.key
  cells_size := by simp [chart.cells_size]

-- Of two derivations of one category the first one found is kept. Whether the category is known is
-- asked before whether there is a cell for it.
def enter (node : Node) : EStateM ChartError Chart (Option Nat) := do
  let chart ← get
  if chart.memo.contains node.key then return none
  else if node.first ≤ node.last ∧ node.last < chart.size then
    set (chart.push node)
    return some chart.nodes.size
  else throw (.outside node.first node.last chart.size)

def add (chart : Chart) (node : Node) : Except ChartError (Option Nat × Chart) :=
  match (enter node).run chart with
  | .ok place next => .ok (place, next)
  | .error error _ => .error error

def addAll (chart : Chart) (nodes : List Node) : Except ChartError Chart :=
  nodes.foldlM (fun chart node => (·.2) <$> chart.add node) chart

def roots (chart : Chart) (symbol : String) : Except ChartError (List Nat) :=
  if chart.size = 0 then .ok []
  else do
    let entries ← chart.entriesAt 0 (chart.size - 1)
    return (entries.filter (·.2.category.symbol = symbol)).map (·.1)

def isGrammatical (chart : Chart) (symbol : String) : Except ChartError Bool := do
  return !(← chart.roots symbol).isEmpty

def spansByRow (size : Nat) : List (Nat × Nat) :=
  (List.range size).flatMap fun first =>
    (List.range (size - first)).map fun extra => (first, first + extra)

def render (chart : Chart) : Except ChartError String := do
  let rows ← (spansByRow chart.size).mapM fun (first, last) => chart.nodesAt first last
  return String.join (rows.flatten.map fun node => "  " ++ node.render ++ "\n")

end Chart
end Concord
