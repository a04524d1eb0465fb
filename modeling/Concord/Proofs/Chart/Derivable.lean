import Concord.Proofs.Chart.Filled

namespace Concord.Grammar

variable {grammar : Grammar} {words : List String} {tags : List (List Category)} {chart : Chart}
  {first last : Nat} {category : Category} {tree : Tree}

-- The least relation that contains the tags and is closed under the rules.
inductive Derives (grammar : Grammar) (tags : List (List Category)) : Nat → Nat → Category → Prop where
  | token {position : Nat} {categories : List Category} {category : Category}
      (listed : tags[position]? = some categories) (member : category ∈ categories) :
      Derives grammar tags position position category
  | unary {first last : Nat} {rule : Rule} {part whole : Category}
      (known : rule ∈ grammar.rules) (raises : rule.Raises part whole)
      (below : Derives grammar tags first last part) : Derives grammar tags first last whole
  | binary {first cut last : Nat} {rule : Rule} {left right whole : Category}
      (known : rule ∈ grammar.rules) (joins : rule.Joins left right whole)
      (lefts : Derives grammar tags first cut left) (rights : Derives grammar tags (cut + 1) last right) :
      Derives grammar tags first last whole

-- A derivation written out as a tree. The features of a branch are not written on it: they are the
-- ones that the relation assigns to it.
inductive Derivation (grammar : Grammar) (words : List String) (tags : List (List Category)) :
    Nat → Nat → Category → Tree → Prop where
  | token {position : Nat} {text : String} {categories : List Category} {category : Category}
      (word : words[position]? = some text) (listed : tags[position]? = some categories)
      (member : category ∈ categories) :
      Derivation grammar words tags position position category
        (.branch category.symbol ⟨position, position + 1⟩ [.leaf text ⟨position, position + 1⟩])
  | unary {first last : Nat} {rule : Rule} {part whole : Category} {tree : Tree}
      (known : rule ∈ grammar.rules) (raises : rule.Raises part whole)
      (below : Derivation grammar words tags first last part tree) :
      Derivation grammar words tags first last whole (.branch whole.symbol ⟨first, last + 1⟩ [tree])
  | binary {first cut last : Nat} {rule : Rule} {left right whole : Category} {leftTree rightTree : Tree}
      (known : rule ∈ grammar.rules) (joins : rule.Joins left right whole)
      (lefts : Derivation grammar words tags first cut left leftTree)
      (rights : Derivation grammar words tags (cut + 1) last right rightTree) :
      Derivation grammar words tags first last whole
        (.branch whole.symbol ⟨first, last + 1⟩ [leftTree, rightTree])

theorem Derivation.derives (derivation : grammar.Derivation words tags first last category tree) :
    grammar.Derives tags first last category := by
  induction derivation with
  | token word listed member => exact .token listed member
  | unary known raises below step => exact .unary known raises step
  | binary known joins lefts rights stepLeft stepRight => exact .binary known joins stepLeft stepRight

theorem Derives.forward (derives : grammar.Derives tags first last category) : first ≤ last := by
  induction derives with
  | token => exact Nat.le_refl _
  | unary known raises below step => exact step
  | binary known joins lefts rights stepLeft stepRight => omega

-- By strong induction on the place: what a node rests on stands before it.
theorem Sound.derivation (sound : grammar.Sound tags chart) (index : Nat) {node : Node}
    (found : chart.nodes[index]? = some node) :
    grammar.Derivation chart.words.toList tags node.first node.last node.category
      (node.grow chart.forest) := by
  induction index using Nat.strongRecOn generalizing node with
  | ind index step =>
    have rests := sound.supported index node found
    unfold Supports at rests
    unfold Node.grow Node.extent
    cases origin : node.origin with
    | word text =>
      simp only [origin] at rests
      obtain ⟨single, word, categories, listed, member⟩ := rests
      rw [← single]
      exact .token (by simpa using word) listed member
    | unary child =>
      simp only [origin] at rests
      obtain ⟨before, part, there, starts, ends, rule, known, raises⟩ := rests
      have below := step child before there
      rw [starts, ends] at below
      simpa [Node.children, origin, sound.rooted.forest_at there] using below.unary known raises
    | binary left right =>
      simp only [origin] at rests
      obtain ⟨leftBefore, rightBefore, leftPart, rightPart, leftThere, rightThere, starts, meets, ends, _, _,
        rule, known, joins⟩ := rests
      have lefts := step left leftBefore leftThere
      have rights := step right rightBefore rightThere
      rw [starts] at lefts
      rw [meets, ends] at rights
      simpa [Node.children, origin, sound.rooted.forest_at leftThere, sound.rooted.forest_at rightThere]
        using Derivation.binary known joins lefts rights

-- Completeness follows the derivation; the equation of the cell does the rest.
theorem Filled.holds (filled : grammar.Filled words tags chart)
    (derives : grammar.Derives tags first last category) (inside : last < words.length) :
    FirstWins.Holds Constituent.category (chart.constituents first last) category := by
  induction derives with
  | @token position categories category listed member =>
    rw [filled.settled position position ⟨Nat.le_refl _, inside⟩]
    have word : words[position]? = some words[position] := List.getElem?_eq_getElem inside
    have seeded : ∃ item ∈ grammar.seeds words tags chart.constituents position position,
        item.category = category := by
      unfold seeds readingsAt
      rw [if_pos rfl, word, listed]
      exact ⟨_, List.mem_map_of_mem member, rfl⟩
    obtain ⟨item, seed, rfl⟩ := seeded
    exact settle_holds seed
  | @unary first last rule part whole known raises below step =>
    have settled := filled.settled first last ⟨below.forward, inside⟩
    obtain ⟨item, member, rfl⟩ := step inside
    obtain ⟨parent, above, rfl⟩ := raise_holds known raises
    rw [settled] at member ⊢
    exact settle_closed _ item member parent above
  | @binary first cut last rule left right whole known joins lefts rights stepLeft stepRight =>
    have ordered := lefts.forward
    have ordered' := rights.forward
    obtain ⟨leftItem, leftMember, rfl⟩ := stepLeft (by omega)
    obtain ⟨rightItem, rightMember, rfl⟩ := stepRight inside
    obtain ⟨item, member, rfl⟩ := join_holds leftMember rightMember known joins
    rw [filled.settled first last ⟨by omega, inside⟩]
    refine settle_holds ?_
    unfold seeds
    rw [if_neg (by omega)]
    refine List.mem_flatMap.mpr ⟨cut - first, List.mem_range.mpr (by omega), ?_⟩
    rw [Nat.add_sub_cancel' ordered]
    exact member

theorem Filled.holds_iff (filled : grammar.Filled words tags chart)
    (inside : first ≤ last ∧ last < words.length) :
    (∃ node ∈ (chart.covering first last).map Prod.snd, node.category = category) ↔
      grammar.Derives tags first last category := by
  constructor
  · rintro ⟨node, member, rfl⟩
    obtain ⟨⟨index, found⟩, there, rfl⟩ := List.mem_map.mp member
    obtain ⟨placed, rfl, rfl⟩ := Chart.mem_covering.mp there
    exact (filled.sound.derivation index placed).derives
  · intro derives
    obtain ⟨item, member, rfl⟩ := filled.holds derives inside.2
    obtain ⟨entry, there, rfl⟩ := List.mem_map.mp member
    exact ⟨entry.2, List.mem_map_of_mem there, rfl⟩

theorem Filled.categories (filled : grammar.Filled words tags chart)
    (inside : first ≤ last ∧ last < words.length) :
    ∃ nodes, chart.nodesAt first last = .ok nodes ∧
      ∀ category, category ∈ nodes.map Node.category ↔ grammar.Derives tags first last category := by
  refine ⟨_, filled.sound.filed.nodesAt_eq (by rwa [filled.size_eq]), ?_⟩
  intro category
  rw [← filled.holds_iff inside, List.mem_map]

theorem nodesAt_iff_derives (grammar : Grammar) (words : List String) (tags : List (List Category)) :
    ∃ chart, grammar.chart words tags = .ok chart ∧
      ∀ first last, first ≤ last → last < words.length →
        ∃ nodes, chart.nodesAt first last = .ok nodes ∧
          ∀ category, (∃ node ∈ nodes, node.category = category) ↔
            grammar.Derives tags first last category := by
  obtain ⟨chart, run, filled⟩ := chart_filled grammar words tags
  refine ⟨chart, run, fun first last forward inside => ?_⟩
  have within : first ≤ last ∧ last < chart.size := ⟨forward, by rwa [filled.size_eq]⟩
  exact ⟨_, filled.sound.filed.nodesAt_eq within, fun category => filled.holds_iff ⟨forward, inside⟩⟩

end Concord.Grammar
