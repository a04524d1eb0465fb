import Concord.Chart.Fill
import Concord.Proofs.Chart.Growth
import Concord.Proofs.Grammar.Rules

namespace Concord.Grammar

variable {grammar : Grammar} {tags : List (List Category)} {chart after : Chart} {node : Node}
  {first last : Nat}

def Supports (grammar : Grammar) (tags : List (List Category)) (chart : Chart) (index : Nat)
    (node : Node) : Prop :=
  match node.origin with
  | .word text =>
    node.first = node.last ∧ chart.words[node.first]? = some text ∧
      ∃ categories, tags[node.first]? = some categories ∧ node.category ∈ categories
  | .unary child =>
    child < index ∧ ∃ part, chart.nodes[child]? = some part ∧
      part.first = node.first ∧ part.last = node.last ∧
      ∃ rule ∈ grammar.rules, rule.Raises part.category node.category
  | .binary left right =>
    left < index ∧ right < index ∧ ∃ leftPart rightPart,
      chart.nodes[left]? = some leftPart ∧ chart.nodes[right]? = some rightPart ∧
      leftPart.first = node.first ∧ rightPart.first = leftPart.last + 1 ∧ rightPart.last = node.last ∧
      node.first ≤ leftPart.last ∧ leftPart.last < node.last ∧
      ∃ rule ∈ grammar.rules, rule.Joins leftPart.category rightPart.category node.category

theorem Supports.rooted {index : Nat} (rests : grammar.Supports tags chart index node) :
    node.Rooted index := by
  intro child member
  unfold Supports at rests
  cases origin : node.origin with
  | word text => simp [Node.children, origin] at member
  | unary below =>
    simp only [origin] at rests
    have same : child = below := by simpa [Node.children, origin] using member
    exact same ▸ rests.1
  | binary left right =>
    simp only [origin] at rests
    have same : child = left ∨ child = right := by simpa [Node.children, origin] using member
    rcases same with rfl | rfl
    · exact rests.1
    · exact rests.2.1

theorem Supports.mono {index index' : Nat} (rests : grammar.Supports tags chart index node)
    (grown : chart.Extends first last after) (later : index ≤ index') :
    grammar.Supports tags after index' node := by
  unfold Supports at rests ⊢
  cases origin : node.origin with
  | word text =>
    simp only [origin] at rests ⊢
    rw [grown.words]
    exact rests
  | unary child =>
    simp only [origin] at rests ⊢
    obtain ⟨before, part, found, rest⟩ := rests
    exact ⟨by omega, part, grown.node_at found, rest⟩
  | binary left right =>
    simp only [origin] at rests ⊢
    obtain ⟨leftBefore, rightBefore, leftPart, rightPart, leftFound, rightFound, rest⟩ := rests
    exact ⟨by omega, by omega, leftPart, rightPart, grown.node_at leftFound, grown.node_at rightFound, rest⟩

structure Due (grammar : Grammar) (tags : List (List Category)) (chart : Chart) (first last : Nat)
    (node : Node) : Prop where
  here : node.first = first ∧ node.last = last
  rests : grammar.Supports tags chart chart.nodes.size node

theorem Due.mono (due : grammar.Due tags chart first last node) (grown : chart.Extends first last after) :
    grammar.Due tags after first last node :=
  ⟨due.here, due.rests.mono grown grown.count_le⟩

theorem due_reading {position : Nat} (member : node ∈ chart.readings tags position) :
    grammar.Due tags chart position position node := by
  unfold Chart.readings at member
  split at member
  · rename_i text categories word listed
    obtain ⟨category, present, rfl⟩ := List.mem_map.mp member
    exact ⟨⟨rfl, rfl⟩, rfl, word, categories, listed, present⟩
  · cases member

theorem due_parent {child : Nat} {part : Node} (found : (child, part) ∈ chart.covering first last)
    (member : node ∈ grammar.parents first last child part.category) :
    grammar.Due tags chart first last node := by
  obtain ⟨there, starts, ends⟩ := Chart.mem_covering.mp found
  obtain ⟨rule, listed, rfl⟩ := List.mem_map.mp member
  obtain ⟨known, production⟩ := mem_unaryRules.mp listed
  have before : child < chart.nodes.size := (Array.getElem?_eq_some_iff.mp there).1
  exact ⟨⟨rfl, rfl⟩, before, part, there, starts, ends, rule, known, rfl, production, rfl⟩

theorem due_combination {cut : Nat} (inside : first ≤ cut ∧ cut < last)
    (member : node ∈ grammar.combineCells first last (chart.covering first cut) (chart.covering (cut + 1) last)) :
    grammar.Due tags chart first last node := by
  obtain ⟨⟨left, leftPart⟩, leftFound, member⟩ := List.mem_flatMap.mp member
  obtain ⟨⟨right, rightPart⟩, rightFound, member⟩ := List.mem_flatMap.mp member
  obtain ⟨⟨rule, features⟩, combined, rfl⟩ := List.mem_map.mp member
  obtain ⟨known, joins⟩ := mem_combine.mp combined
  obtain ⟨leftThere, leftStarts, leftEnds⟩ := Chart.mem_covering.mp leftFound
  obtain ⟨rightThere, rightStarts, rightEnds⟩ := Chart.mem_covering.mp rightFound
  have leftBefore : left < chart.nodes.size := (Array.getElem?_eq_some_iff.mp leftThere).1
  have rightBefore : right < chart.nodes.size := (Array.getElem?_eq_some_iff.mp rightThere).1
  refine ⟨⟨rfl, rfl⟩, leftBefore, rightBefore, leftPart, rightPart, leftThere, rightThere, leftStarts,
    by omega, rightEnds, ?_, ?_, rule, known, joins⟩
  · exact leftEnds ▸ inside.1
  · exact leftEnds ▸ inside.2

end Concord.Grammar
