import Concord.Chart.Trees
import Concord.Proofs.Chart.Cells
import Concord.Proofs.Chart.FirstWins

namespace Concord

namespace Node

variable {node : Node} {forest more : List Tree}

def extent (node : Node) : Extent := ⟨node.first, node.last + 1⟩

def grow (forest : List Tree) (node : Node) : Tree :=
  .branch node.category.symbol node.extent
    (match node.origin with
      | .word text => [.leaf text node.extent]
      | _ => node.children.filterMap (forest[·]?))

def Rooted (place : Nat) (node : Node) : Prop := ∀ child ∈ node.children, child < place

theorem Rooted.mono {place later : Nat} (rooted : node.Rooted place) (order : place ≤ later) :
    node.Rooted later :=
  fun child member => Nat.lt_of_lt_of_le (rooted child member) order

theorem grow_append (rooted : node.Rooted forest.length) :
    node.grow (forest ++ more) = node.grow forest := by
  have parts : node.children.filterMap ((forest ++ more)[·]?) = node.children.filterMap (forest[·]?) :=
    List.filterMap_congr fun child member => List.getElem?_append_left (rooted child member)
  unfold grow
  cases origin : node.origin <;> simp only [parts]

end Node

namespace Chart

variable {chart : Chart} {node : Node} {first last index : Nat}

-- Each tree is grown from those of the nodes before it, so later nodes do not change it.
def growAll (forest : List Tree) (nodes : List Node) : List Tree :=
  nodes.foldl (fun forest node => forest ++ [node.grow forest]) forest

def forest (chart : Chart) : List Tree := growAll [] chart.nodes.toList

def Rooted (chart : Chart) : Prop :=
  ∀ (index : Nat) (node : Node), chart.nodes[index]? = some node → node.Rooted index

theorem growAll_prefix {forest : List Tree} {nodes : List Node} : forest <+: growAll forest nodes := by
  induction nodes generalizing forest with
  | nil => exact List.prefix_rfl
  | cons node rest step => exact (List.prefix_append _ _).trans step

theorem growAll_append {forest : List Tree} {nodes later : List Node} :
    growAll forest (nodes ++ later) = growAll (growAll forest nodes) later :=
  List.foldl_append

theorem growAll_length {forest : List Tree} {nodes : List Node} :
    (growAll forest nodes).length = forest.length + nodes.length := by
  induction nodes generalizing forest with
  | nil => rfl
  | cons node rest step =>
    refine step.trans ?_
    simp only [List.length_append, List.length_cons, List.length_nil]
    omega

theorem growAll_at (nodes : List Node) (forest : List Tree)
    (rooted : ∀ (index : Nat) (node : Node), nodes[index]? = some node → node.Rooted (forest.length + index))
    (found : nodes[index]? = some node) :
    (growAll forest nodes)[forest.length + index]? = some (node.grow (growAll forest nodes)) := by
  induction nodes generalizing forest index with
  | nil => cases found
  | cons head rest step =>
    cases index with
    | zero =>
      cases Option.some.inj found
      have grown : forest ++ [node.grow forest] <+: growAll forest (node :: rest) := growAll_prefix
      obtain ⟨more, joined⟩ := grown
      have here : node.grow (forest ++ ([node.grow forest] ++ more)) = node.grow forest :=
        Node.grow_append (rooted 0 node rfl)
      rw [← joined, List.append_assoc, here]
      simp
    | succ index =>
      have length : (forest ++ [head.grow forest]).length = forest.length + 1 := by simp
      have later := step (forest ++ [head.grow forest])
        (fun place other there => (rooted (place + 1) other there).mono (by omega)) found
      rwa [length, Nat.add_assoc, Nat.add_comm 1] at later

theorem forest_length : chart.forest.length = chart.nodes.size := by
  simp [forest, growAll_length]

theorem Rooted.forest_at (rooted : chart.Rooted) (found : chart.nodes[index]? = some node) :
    chart.forest[index]? = some (node.grow chart.forest) := by
  have grown := growAll_at chart.nodes.toList []
    (fun place other there => by simpa using rooted place other (by simpa using there))
    (show chart.nodes.toList[index]? = some node by simpa using found)
  simpa [forest] using grown

-- Below a node the places fall, so a depth beyond its own place is never used up.
theorem Rooted.treeWithin_eq (rooted : chart.Rooted) {depth : Nat}
    (found : chart.nodes[index]? = some node) (deep : index < depth) :
    chart.treeWithin depth index = .ok (node.grow chart.forest) := by
  induction depth generalizing index node with
  | zero => omega
  | succ depth step =>
    have below : ∀ child ∈ node.children, ∃ part, chart.forest[child]? = some part ∧
        chart.treeWithin depth child = .ok part := by
      intro child member
      have before := rooted index node found child member
      have here : index < chart.nodes.size := (Array.getElem?_eq_some_iff.mp found).1
      have there : chart.nodes[child]? = some chart.nodes[child] := Array.getElem?_eq_getElem (by omega)
      exact ⟨_, rooted.forest_at there, step there (by omega)⟩
    unfold treeWithin
    rw [entry_node found]
    cases origin : node.origin with
    | word text => simp [Node.grow, Node.extent, origin]
    | unary child =>
      obtain ⟨part, planted, read⟩ := below child (by simp [Node.children, origin])
      simp [Node.grow, Node.extent, Node.children, origin, planted, read]
    | binary left right =>
      obtain ⟨leftPart, leftPlanted, leftRead⟩ := below left (by simp [Node.children, origin])
      obtain ⟨rightPart, rightPlanted, rightRead⟩ := below right (by simp [Node.children, origin])
      simp [Node.grow, Node.extent, Node.children, origin, leftPlanted, rightPlanted, leftRead, rightRead]

theorem Rooted.tree_eq (rooted : chart.Rooted) (found : chart.nodes[index]? = some node) :
    chart.tree index = .ok (node.grow chart.forest) := by
  have here : index < chart.nodes.size := (Array.getElem?_eq_some_iff.mp found).1
  exact rooted.treeWithin_eq found (by omega)

theorem Rooted.empty (words : List String) : (Chart.empty words).Rooted := by
  intro index node found
  simp [Chart.empty] at found

theorem Rooted.push (rooted : chart.Rooted) (last : node.Rooted chart.nodes.size) :
    (chart.push node).Rooted := by
  intro index other found
  have split : chart.nodes[index]? = some other ∨ index = chart.nodes.size ∧ node = other := by
    rw [Chart.push, Array.getElem?_push] at found
    split at found
    · rename_i top
      exact Or.inr ⟨top, Option.some.inj found⟩
    · exact Or.inl found
  rcases split with old | ⟨rfl, rfl⟩
  · exact rooted index other old
  · exact last

end Chart
end Concord
