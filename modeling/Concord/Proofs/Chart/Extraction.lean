import Concord.Parsing
import Concord.Proofs.Chart.Derivable

namespace Concord

def placed (words : List String) : List (String × Extent) :=
  words.zipIdx.map fun (word, position) => (word, ⟨position, position + 1⟩)

theorem placed_fst (words : List String) : (placed words).map Prod.fst = words := by
  unfold placed
  rw [List.map_map]
  exact List.zipIdx_map_fst 0 words

namespace Tree

mutual

def placedLeaves : Tree → List (String × Extent)
  | leaf word extent => [(word, extent)]
  | branch _ _ children => placedLeavesOfAll children

def placedLeavesOfAll : List Tree → List (String × Extent)
  | [] => []
  | tree :: rest => placedLeaves tree ++ placedLeavesOfAll rest

end

mutual

theorem leaves_eq : ∀ tree : Tree, tree.leaves = tree.placedLeaves.map Prod.fst
  | leaf word extent => by simp [leaves, placedLeaves]
  | branch symbol extent children => by
    simp only [leaves, placedLeaves]
    exact leavesOfAll_eq children

theorem leavesOfAll_eq : ∀ trees : List Tree, leavesOfAll trees = (placedLeavesOfAll trees).map Prod.fst
  | [] => by simp [leavesOfAll, placedLeavesOfAll]
  | tree :: rest => by
    simp only [leavesOfAll, placedLeavesOfAll, List.map_append]
    rw [leaves_eq tree, leavesOfAll_eq rest]

end

end Tree

namespace Chart

variable {chart : Chart} {first last : Nat}

def tops (chart : Chart) (symbol : String) : List (Nat × Node) :=
  (chart.covering 0 (chart.size - 1)).filter fun entry => entry.2.category.symbol = symbol

theorem Filed.tops_empty (filed : chart.Filed) (symbol : String) (none : chart.size = 0) :
    chart.tops symbol = [] := by
  refine List.filter_eq_nil_iff.mpr ?_
  rintro ⟨index, node⟩ member
  obtain ⟨found, _⟩ := mem_covering.mp member
  have inside := filed.inside node (by simpa using Array.mem_of_getElem? found)
  unfold Inside at inside
  omega

theorem Filed.roots_eq (filed : chart.Filed) (symbol : String) :
    chart.roots symbol = .ok ((chart.tops symbol).map Prod.fst) := by
  unfold roots
  by_cases none : chart.size = 0
  · rw [if_pos none, filed.tops_empty symbol none]
    rfl
  · rw [if_neg none, filed.entriesAt_eq (by omega)]
    rfl

theorem Filed.trees_eq (filed : chart.Filed) (rooted : chart.Rooted) (symbol : String) :
    chart.trees symbol = .ok ((chart.tops symbol).map fun entry => entry.2.grow chart.forest) := by
  have each : ∀ entry ∈ chart.tops symbol,
      (chart.tree ∘ Prod.fst) entry = .ok (entry.2.grow chart.forest) := by
    rintro ⟨index, node⟩ member
    exact rooted.tree_eq (mem_covering.mp (List.mem_filter.mp member).1).1
  unfold trees
  rw [filed.roots_eq]
  change List.mapM _ (List.map _ _) = _
  rw [List.mapM_map]
  exact mapM_ok each

def topFeatures (chart : Chart) (symbol : String) : List Features :=
  (chart.tops symbol).map (·.2.category.features)

theorem Filed.topFeatures_nodup (filed : chart.Filed) (symbol : String) :
    (chart.topFeatures symbol).Nodup := by
  unfold topFeatures List.Nodup
  rw [List.pairwise_map]
  refine (filed.covering_distinct.filter _).imp_of_mem ?_
  rintro ⟨index, node⟩ ⟨index', node'⟩ member member' apart same
  have symbols : node.category.symbol = symbol := by simpa using (List.mem_filter.mp member).2
  have symbols' : node'.category.symbol = symbol := by simpa using (List.mem_filter.mp member').2
  refine apart ?_
  cases left : node.category
  cases right : node'.category
  simp_all

end Chart

namespace Grammar

variable {grammar : Grammar} {words : List String} {tags : List (List Category)} {chart : Chart}
  {first last : Nat} {category : Category} {tree : Tree}

theorem Derivation.top (derivation : grammar.Derivation words tags first last category tree) :
    tree.value = category.symbol ∧ tree.extent = ⟨first, last + 1⟩ := by
  cases derivation <;> exact ⟨rfl, rfl⟩

theorem Derivation.placedLeaves_eq (derivation : grammar.Derivation words tags first last category tree) :
    tree.placedLeaves = ((placed words).drop first).take (last + 1 - first) := by
  induction derivation with
  | @token position text categories category word listed member =>
    have there : (placed words)[position]? = some (text, ⟨position, position + 1⟩) := by
      simp [placed, word]
    obtain ⟨bound, same⟩ := List.getElem?_eq_some_iff.mp there
    rw [List.drop_eq_getElem_cons bound, same, Nat.add_sub_cancel_left]
    simp [Tree.placedLeaves, Tree.placedLeavesOfAll]
  | unary known raises below step =>
    simpa [Tree.placedLeaves, Tree.placedLeavesOfAll] using step
  | @binary first cut last rule left right whole leftTree rightTree known joins lefts rights stepLeft stepRight =>
    have ordered := lefts.derives.forward
    have ordered' := rights.derives.forward
    have widths : last + 1 - first = (cut + 1 - first) + (last + 1 - (cut + 1)) := by omega
    have meets : first + (cut + 1 - first) = cut + 1 := by omega
    rw [widths, List.take_add, List.drop_drop, meets]
    simp [Tree.placedLeaves, Tree.placedLeavesOfAll, stepLeft, stepRight]

structure Spans (grammar : Grammar) (words : List String) (tags : List (List Category))
    (category : Category) (tree : Tree) : Prop where
  derivation : grammar.Derivation words tags 0 (words.length - 1) category tree
  root : tree.value = category.symbol
  extent : tree.extent = ⟨0, words.length⟩
  leaves : tree.leaves = words
  placed : tree.placedLeaves = Concord.placed words

theorem Derivation.spans (derivation : grammar.Derivation words tags 0 (words.length - 1) category tree)
    (nonempty : words ≠ []) : grammar.Spans words tags category tree := by
  have counted : 0 < words.length := List.length_pos_iff.mpr nonempty
  have whole : words.length - 1 + 1 = words.length := by omega
  have here : tree.placedLeaves = Concord.placed words := by
    rw [derivation.placedLeaves_eq, List.drop_zero, whole]
    exact List.take_of_length_le (by simp [Concord.placed])
  refine ⟨derivation, derivation.top.1, by rw [derivation.top.2, whole], ?_, here⟩
  rw [Tree.leaves_eq, here, placed_fst]

theorem Filled.mem_topFeatures (filled : grammar.Filled words tags chart) (symbol : String)
    (features : Features) : features ∈ chart.topFeatures symbol ↔
      words ≠ [] ∧ grammar.Derives tags 0 (words.length - 1) ⟨symbol, features⟩ := by
  have size := filled.size_eq
  constructor
  · intro member
    obtain ⟨⟨index, node⟩, top, rfl⟩ := List.mem_map.mp member
    have nonempty : words ≠ [] := by
      rintro rfl
      rw [filled.sound.filed.tops_empty symbol size] at top
      cases top
    have counted : 0 < words.length := List.length_pos_iff.mpr nonempty
    obtain ⟨spans, labelled⟩ := List.mem_filter.mp top
    have same : node.category.symbol = symbol := by simpa using labelled
    refine ⟨nonempty, (filled.holds_iff (by omega)).mp ⟨node, ?_, by rw [← same]⟩⟩
    rw [← size]
    exact List.mem_map_of_mem spans
  · rintro ⟨nonempty, derives⟩
    have counted : 0 < words.length := List.length_pos_iff.mpr nonempty
    obtain ⟨node, member, same⟩ := (filled.holds_iff (by omega)).mpr derives
    obtain ⟨entry, spans, rfl⟩ := List.mem_map.mp member
    rw [← size] at spans
    refine List.mem_map.mpr ⟨entry, List.mem_filter.mpr ⟨spans, by simp [same]⟩, by rw [same]⟩

theorem Filled.trees_span (filled : grammar.Filled words tags chart) (symbol : String) :
    List.Forall₂ (fun features tree => grammar.Spans words tags ⟨symbol, features⟩ tree)
      (chart.topFeatures symbol) ((chart.tops symbol).map fun entry => entry.2.grow chart.forest) := by
  unfold Chart.topFeatures
  rw [List.forall₂_map_left_iff, List.forall₂_map_right_iff, List.forall₂_same]
  rintro ⟨index, node⟩ top
  have member : node.category.features ∈ chart.topFeatures symbol := List.mem_map_of_mem top
  obtain ⟨nonempty, _⟩ := (filled.mem_topFeatures symbol _).mp member
  obtain ⟨spans, labelled⟩ := List.mem_filter.mp top
  obtain ⟨found, starts, ends⟩ := Chart.mem_covering.mp spans
  have same : node.category.symbol = symbol := by simpa using labelled
  have derivation := filled.sound.derivation index found
  rw [filled.words_eq, starts, ends, filled.size_eq] at derivation
  have category : node.category = ⟨symbol, node.category.features⟩ := by rw [← same]
  rw [category] at derivation
  exact derivation.spans nonempty

theorem Filled.topFeatures_eq (filled : grammar.Filled words tags chart) (symbol : String)
    (nonempty : words ≠ []) : ∃ nodes, chart.nodesAt 0 (words.length - 1) = .ok nodes ∧
      chart.topFeatures symbol =
        (nodes.filter fun node => node.category.symbol = symbol).map (·.category.features) := by
  have counted : 0 < words.length := List.length_pos_iff.mpr nonempty
  refine ⟨_, filled.sound.filed.nodesAt_eq (by rw [filled.size_eq]; omega), ?_⟩
  unfold Chart.topFeatures Chart.tops
  rw [filled.size_eq, List.filter_map, List.map_map]
  rfl

theorem Filled.tops_ne_nil (filled : grammar.Filled words tags chart) (symbol : String) :
    chart.tops symbol ≠ [] ↔
      words ≠ [] ∧ ∃ features, grammar.Derives tags 0 (words.length - 1) ⟨symbol, features⟩ := by
  have members := filled.mem_topFeatures symbol
  unfold Chart.topFeatures at members
  constructor
  · intro some
    obtain ⟨entry, top⟩ := List.exists_mem_of_ne_nil _ some
    obtain ⟨nonempty, derives⟩ := (members _).mp (List.mem_map_of_mem top)
    exact ⟨nonempty, _, derives⟩
  · rintro ⟨nonempty, features, derives⟩ none
    have member := (members features).mpr ⟨nonempty, derives⟩
    rw [none] at member
    cases member

theorem Filled.isGrammatical (filled : grammar.Filled words tags chart) (symbol : String) :
    ∃ answer, chart.isGrammatical symbol = .ok answer ∧ (answer = true ↔
      words ≠ [] ∧ ∃ features, grammar.Derives tags 0 (words.length - 1) ⟨symbol, features⟩) := by
  refine ⟨!((chart.tops symbol).map Prod.fst).isEmpty, ?_, ?_⟩
  · unfold Chart.isGrammatical
    rw [filled.sound.filed.roots_eq]
    rfl
  · rw [← filled.tops_ne_nil]
    simp

theorem trees_exact (grammar : Grammar) (words : List String) (tags : List (List Category)) :
    ∃ chart, grammar.chart words tags = .ok chart ∧
      (∀ symbol, ∃ trees bundles, chart.trees symbol = .ok trees ∧ bundles.Nodup ∧
        (∀ features, features ∈ bundles ↔
          words ≠ [] ∧ grammar.Derives tags 0 (words.length - 1) ⟨symbol, features⟩) ∧
        (words ≠ [] → ∃ nodes, chart.nodesAt 0 (words.length - 1) = .ok nodes ∧
          bundles = (nodes.filter fun node => node.category.symbol = symbol).map (·.category.features)) ∧
        List.Forall₂ (fun features tree => grammar.Spans words tags ⟨symbol, features⟩ tree) bundles trees) ∧
      ∃ trees, grammar.parseTagged words tags = .ok trees ∧
        (trees ≠ [] ↔
          words ≠ [] ∧ ∃ features, grammar.Derives tags 0 (words.length - 1) ⟨grammar.start, features⟩) := by
  obtain ⟨chart, run, filled⟩ := chart_filled grammar words tags
  have filed := filled.sound.filed
  have read := filed.trees_eq filled.sound.rooted
  refine ⟨chart, run, fun symbol => ?_,
    (chart.tops grammar.start).map fun entry => entry.2.grow chart.forest, ?_, ?_⟩
  · exact ⟨_, chart.topFeatures symbol, read symbol, filed.topFeatures_nodup symbol,
      filled.mem_topFeatures symbol, filled.topFeatures_eq symbol, filled.trees_span symbol⟩
  · rw [parseTagged, run]
    exact read grammar.start
  · rw [← filled.tops_ne_nil, ne_eq, List.map_eq_nil_iff]

end Grammar
end Concord
