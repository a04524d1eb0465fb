import Concord.Proofs.Chart.Forest

namespace Concord

-- What a node is to the spans above it: its category and its tree, without its place.
structure Constituent where
  category : Category
  tree : Tree
  deriving DecidableEq

def Node.constituent (forest : List Tree) (node : Node) : Constituent :=
  ⟨node.category, node.grow forest⟩

namespace Chart

variable {chart before middle after : Chart} {node : Node} {nodes : List Node}
  {first last first' last' : Nat}

def constituents (chart : Chart) (first last : Nat) : List Constituent :=
  (chart.covering first last).map fun entry => entry.2.constituent chart.forest

-- Only what is over one span grows: the older nodes, their trees and all other cells stay what they are.
structure Extends (first last : Nat) (before after : Chart) : Prop where
  words : after.words = before.words
  nodes : ∃ fresh, after.nodes.toList = before.nodes.toList ++ fresh ∧
    ∀ node ∈ fresh, node.first = first ∧ node.last = last

theorem Extends.refl : chart.Extends first last chart := ⟨rfl, [], by simp, by simp⟩

theorem Extends.trans (one : before.Extends first last middle) (two : middle.Extends first last after) :
    before.Extends first last after := by
  obtain ⟨early, joined, here⟩ := one.nodes
  obtain ⟨late, joined', here'⟩ := two.nodes
  refine ⟨two.words.trans one.words, early ++ late, by rw [joined', joined, List.append_assoc], ?_⟩
  intro node member
  rcases List.mem_append.mp member with old | new
  · exact here node old
  · exact here' node new

theorem Extends.put (here : node.first = first ∧ node.last = last) :
    chart.Extends first last (chart.put node) := by
  unfold Chart.put
  split
  · exact .refl
  · refine ⟨rfl, [node], by simp [push], ?_⟩
    intro other member
    cases List.mem_singleton.mp member
    exact here

theorem Extends.size_eq (grown : before.Extends first last after) : after.size = before.size := by
  unfold size
  rw [grown.words]

theorem Extends.node_at {index : Nat} (grown : before.Extends first last after)
    (found : before.nodes[index]? = some node) : after.nodes[index]? = some node := by
  obtain ⟨fresh, joined, _⟩ := grown.nodes
  have here : index < before.nodes.toList.length := by
    simpa using (Array.getElem?_eq_some_iff.mp found).1
  rw [← Array.getElem?_toList, joined, List.getElem?_append_left here]
  simpa using found

theorem Extends.count_le (grown : before.Extends first last after) :
    before.nodes.size ≤ after.nodes.size := by
  obtain ⟨fresh, joined, _⟩ := grown.nodes
  have counted := congrArg List.length joined
  simp only [List.length_append, Array.length_toList] at counted
  omega

theorem Extends.forest_prefix (grown : before.Extends first last after) :
    before.forest <+: after.forest := by
  obtain ⟨fresh, joined, _⟩ := grown.nodes
  unfold forest
  rw [joined, growAll_append]
  exact growAll_prefix

theorem Extends.grow_eq (grown : before.Extends first last after)
    (rooted : node.Rooted before.nodes.size) : node.grow after.forest = node.grow before.forest := by
  obtain ⟨more, joined⟩ := grown.forest_prefix
  rw [← joined]
  exact Node.grow_append (by rwa [forest_length])

theorem Extends.entries (grown : before.Extends first last after) :
    ∃ fresh, after.entries = before.entries ++ fresh ∧
      ∀ entry ∈ fresh, entry.2.first = first ∧ entry.2.last = last := by
  obtain ⟨fresh, joined, here⟩ := grown.nodes
  unfold Chart.entries
  rw [joined, List.zipIdx_append, List.map_append]
  refine ⟨_, rfl, ?_⟩
  intro entry member
  obtain ⟨⟨node, index⟩, found, rfl⟩ := List.mem_map.mp member
  exact here node (List.fst_mem_of_mem_zipIdx found)

theorem Extends.covering_eq (grown : before.Extends first last after)
    (other : ¬ (first' = first ∧ last' = last)) :
    after.covering first' last' = before.covering first' last' := by
  obtain ⟨fresh, joined, here⟩ := grown.entries
  unfold covering
  rw [joined, List.filter_append]
  refine List.append_right_eq_self.mpr (List.filter_eq_nil_iff.mpr ?_)
  intro entry member span
  have placed := here entry member
  have spans : entry.2.first = first' ∧ entry.2.last = last' := by simpa using span
  omega

theorem Rooted.covering {index : Nat} (rooted : chart.Rooted)
    (member : (index, node) ∈ chart.covering first last) : node.Rooted chart.nodes.size := by
  have found := (mem_covering.mp member).1
  exact (rooted index node found).mono (Nat.le_of_lt (Array.getElem?_eq_some_iff.mp found).1)

theorem Extends.constituents_eq (grown : before.Extends first last after) (rooted : before.Rooted)
    (other : ¬ (first' = first ∧ last' = last)) :
    after.constituents first' last' = before.constituents first' last' := by
  unfold constituents
  rw [grown.covering_eq other]
  refine List.map_congr_left ?_
  rintro ⟨index, node⟩ member
  exact congrArg _ (grown.grow_eq (rooted.covering member))

theorem held_iff : chart.held node ↔
    FirstWins.Holds Constituent.category (chart.constituents node.first node.last)
      (node.constituent chart.forest).category := by
  simp [held, FirstWins.Holds, constituents, Node.constituent]

theorem constituents_put (rooted : chart.Rooted) (last : node.Rooted chart.nodes.size) :
    (chart.put node).constituents node.first node.last =
      FirstWins.keep Constituent.category (chart.constituents node.first node.last)
        (node.constituent chart.forest) := by
  have grown : chart.Extends node.first node.last (chart.put node) := .put ⟨rfl, rfl⟩
  unfold FirstWins.keep
  by_cases old : chart.held node
  · rw [if_pos (held_iff.mp old), put, if_pos old]
  · rw [if_neg fun again => old (held_iff.mpr again)]
    unfold put at grown ⊢
    rw [if_neg old] at grown ⊢
    have stable : ∀ entry ∈ chart.covering node.first node.last,
        entry.2.constituent (chart.push node).forest = entry.2.constituent chart.forest := by
      rintro ⟨index, other⟩ member
      exact congrArg _ (grown.grow_eq (rooted.covering member))
    have new : node.constituent (chart.push node).forest = node.constituent chart.forest :=
      congrArg _ (grown.grow_eq last)
    unfold constituents
    rw [covering_push]
    simp [List.map_congr_left stable, new]

theorem Rooted.put (rooted : chart.Rooted) (last : node.Rooted chart.nodes.size) :
    (chart.put node).Rooted := by
  unfold Chart.put
  split
  · exact rooted
  · exact rooted.push last

def nodesOver (chart : Chart) (first last : Nat) : List Node := (chart.covering first last).map Prod.snd

theorem Extends.covering_prefix (grown : before.Extends first last after) :
    before.covering first' last' <+: after.covering first' last' := by
  obtain ⟨fresh, joined, _⟩ := grown.entries
  unfold covering
  rw [joined, List.filter_append]
  exact List.prefix_append _ _

theorem nodesOver_put (here : node.first = first ∧ node.last = last) :
    (chart.put node).nodesOver first last = FirstWins.keep Node.category (chart.nodesOver first last) node := by
  obtain ⟨rfl, rfl⟩ := here
  have known : chart.held node ↔
      FirstWins.Holds Node.category (chart.nodesOver node.first node.last) node.category := by
    constructor
    · rintro ⟨entry, member, same⟩
      exact ⟨entry.2, List.mem_map_of_mem member, same⟩
    · rintro ⟨other, member, same⟩
      obtain ⟨entry, there, rfl⟩ := List.mem_map.mp member
      exact ⟨entry, there, same⟩
  unfold put FirstWins.keep
  by_cases old : chart.held node
  · rw [if_pos old, if_pos (known.mp old)]
  · rw [if_neg old, if_neg fun again => old (known.mpr again)]
    simp [nodesOver, covering_push]

theorem nodesOver_putAll (here : ∀ node ∈ nodes, node.first = first ∧ node.last = last) :
    (nodes.foldl put chart).nodesOver first last =
      FirstWins.keepAll Node.category (chart.nodesOver first last) nodes := by
  induction nodes generalizing chart with
  | nil => rfl
  | cons node rest step =>
    refine (step fun other member => here other (by simp [member])).trans ?_
    rw [nodesOver_put (here node (by simp))]
    rfl

end Chart
end Concord
