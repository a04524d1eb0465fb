import Mathlib.Data.List.ProdSigma
import Concord.Proofs.Chart.Closing
import Concord.Proofs.Chart.Derivable

namespace Concord

def bundles (tags : List (List Category)) (first last : Nat) : List Features :=
  ((List.range' first (last + 1 - first)).flatMap fun position =>
    (tags.getD position []).map Category.features).eraseDups

theorem mem_bundles {tags : List (List Category)} {first last : Nat} {features : Features} :
    features ∈ bundles tags first last ↔ ∃ position, (first ≤ position ∧ position ≤ last) ∧
      ∃ tag ∈ tags.getD position [], features = tag.features := by
  unfold bundles
  rw [List.mem_eraseDups, List.mem_flatMap]
  constructor
  · rintro ⟨position, range, among⟩
    obtain ⟨tag, read, rfl⟩ := List.mem_map.mp among
    have placed := List.mem_range'_1.mp range
    exact ⟨position, by omega, tag, read, rfl⟩
  · rintro ⟨position, within, tag, read, rfl⟩
    exact ⟨position, List.mem_range'_1.mpr (by omega), List.mem_map_of_mem read⟩

namespace Grammar

variable {grammar : Grammar} {words : List String} {tags : List (List Category)} {chart next : Chart}
  {node : Node} {first last index : Nat} {category : Category}

def ruleSymbols (grammar : Grammar) : List String := (grammar.rules.map Rule.symbol).eraseDups

theorem symbol_mem {rule : Rule} (known : rule ∈ grammar.rules) : rule.symbol ∈ grammar.ruleSymbols :=
  List.mem_eraseDups.mpr (List.mem_map_of_mem known)

-- Features go up from a reading unchanged, whatever is built over it. Only the cell of a single token has
-- its readings besides.
def room (grammar : Grammar) (tags : List (List Category)) (first last : Nat) : Nat :=
  (if first = last then (tags.getD first []).length else 0) +
    grammar.ruleSymbols.length * (bundles tags first last).length

-- By induction on the derivation: the head of each step hands its bundle up.
theorem Derives.features (derives : grammar.Derives tags first last category) :
    ∃ position, (first ≤ position ∧ position ≤ last) ∧
      ∃ tag ∈ tags.getD position [], category.features = tag.features := by
  induction derives with
  | @token position categories category listed member =>
    have read : category ∈ tags.getD position [] := by
      rw [List.getD_eq_getElem?_getD, listed]
      exact member
    exact ⟨position, by omega, category, read, rfl⟩
  | unary known raises below step =>
    rw [raises.features]
    exact step
  | @binary first cut last rule left right whole known joins lefts rights stepLeft stepRight =>
    have ordered := lefts.forward
    have ordered' := rights.forward
    by_cases head : rule.head = 0
    · obtain ⟨position, within, tag, read, same⟩ := stepLeft
      exact ⟨position, by omega, tag, read, (joins.leftHead head).trans same⟩
    · obtain ⟨position, within, tag, read, same⟩ := stepRight
      exact ⟨position, by omega, tag, read, (joins.rightHead head).trans same⟩

theorem Supports.named (rests : grammar.Supports tags chart index node) :
    (node.isTerminal = true ∧ node.first = node.last ∧ node.category ∈ tags.getD node.first []) ∨
      node.category.symbol ∈ grammar.ruleSymbols := by
  unfold Supports at rests
  cases origin : node.origin with
  | word text =>
    simp only [origin] at rests
    obtain ⟨single, _, categories, listed, member⟩ := rests
    refine Or.inl ⟨by simp [Node.isTerminal, Node.text?, origin], single, ?_⟩
    rw [List.getD_eq_getElem?_getD, listed]
    exact member
  | unary child =>
    simp only [origin] at rests
    obtain ⟨_, part, _, _, _, rule, known, raises⟩ := rests
    exact Or.inr (raises.symbol ▸ symbol_mem known)
  | binary left right =>
    simp only [origin] at rests
    obtain ⟨_, _, leftPart, rightPart, _, _, _, _, _, _, _, rule, known, joins⟩ := rests
    exact Or.inr (joins.symbol ▸ symbol_mem known)

def holdable (grammar : Grammar) (tags : List (List Category)) (first last : Nat) : List Category :=
  (if first = last then tags.getD first [] else []) ++
    (grammar.ruleSymbols ×ˢ bundles tags first last).map fun (symbol, features) => ⟨symbol, features⟩

theorem length_holdable (grammar : Grammar) (tags : List (List Category)) (first last : Nat) :
    (grammar.holdable tags first last).length = grammar.room tags first last := by
  unfold holdable room
  rw [List.length_append, List.length_map, List.length_product]
  split <;> rfl

theorem Sound.holdable (sound : grammar.Sound tags chart) (found : chart.nodes[index]? = some node) :
    node.category ∈ grammar.holdable tags node.first node.last := by
  unfold Grammar.holdable
  rcases (sound.supported index node found).named with ⟨_, single, read⟩ | named
  · rw [if_pos single]
    exact List.mem_append_left _ read
  · have bundle := mem_bundles.mpr (sound.derivation index found).derives.features
    exact List.mem_append_right _ (List.mem_map.mpr ⟨_, List.mem_product.mpr ⟨named, bundle⟩, rfl⟩)

theorem Sound.length_le_room (sound : grammar.Sound tags chart) (first last : Nat) :
    (chart.categoriesOver first last).length ≤ grammar.room tags first last := by
  have within : chart.categoriesOver first last ⊆ grammar.holdable tags first last := by
    intro category member
    obtain ⟨node, known, rfl⟩ := List.mem_map.mp member
    obtain ⟨⟨index, node⟩, covered, rfl⟩ := List.mem_map.mp known
    obtain ⟨found, rfl, rfl⟩ := Chart.mem_covering.mp covered
    exact sound.holdable found
  rw [← length_holdable]
  exact (List.subperm_of_subset sound.filed.categoriesOver_nodup within).length_le

-- Spans filled one after the other, each of them closed by as many visits as it takes. There are never
-- more of them than the cell has room for.
inductive Fills (grammar : Grammar) (words : List String) (tags : List (List Category)) :
    List (Nat × Nat) → Chart → Prop where
  | start : Fills grammar words tags [] (.empty words)
  | fill {done : List (Nat × Nat)} {chart seeded next : Chart} {found : List Node} {first last visits : Nat}
      (before : Fills grammar words tags done chart)
      (gathered : grammar.gather tags chart first last = .ok found)
      (added : chart.addAll found = .ok seeded)
      (closed : grammar.Visits first last 0 seeded visits next)
      (bounded : visits ≤ grammar.room tags first last) :
      Fills grammar words tags (done ++ [(first, last)]) next

theorem Fills.step {done rest : List (Nat × Nat)} {span : Nat × Nat}
    (fills : grammar.Fills words tags done chart)
    (order : done ++ span :: rest = Chart.spansByLength words.length)
    (progress : grammar.Progress words tags done chart)
    (run : grammar.fillSpan tags chart span.1 span.2 = .ok next) :
    grammar.Fills words tags (done ++ [span]) next := by
  have inside : span.1 ≤ span.2 ∧ span.2 < chart.size := by
    rw [progress.size_eq]
    exact (next_span order).1
  obtain ⟨found, seeded, stages⟩ := progress.sound.fillSpan_stages inside run
  exact fills.fill stages.gathered stages.added stages.visits (stages.sound.length_le_room span.1 span.2)

theorem features_percolate (grammar : Grammar) (words : List String) (tags : List (List Category)) :
    ∃ chart, grammar.chart words tags = .ok chart ∧
      grammar.Fills words tags (Chart.spansByLength words.length) chart ∧
      ∀ first last, first ≤ last → last < words.length →
        ∃ nodes, chart.nodesAt first last = .ok nodes ∧ nodes.length ≤ grammar.room tags first last ∧
          ∀ node ∈ nodes,
            (∃ position, (first ≤ position ∧ position ≤ last) ∧
              ∃ tag ∈ tags.getD position [], node.category.features = tag.features) ∧
            (node.isTerminal = true ∨ node.category.symbol ∈ grammar.ruleSymbols) := by
  obtain ⟨chart, run, filled, fills⟩ := grammar.chart_keeping words tags (grammar.Fills words tags)
    (fun done rest span chart next order progress kept run grown => kept.step order progress run) .start
  refine ⟨chart, run, fills, ?_⟩
  intro first last forward inside
  refine ⟨_, filled.sound.filed.nodesAt_eq ⟨forward, by rwa [filled.size_eq]⟩, ?_, ?_⟩
  · have bounded := filled.sound.length_le_room first last
    rwa [Chart.categoriesOver, List.length_map] at bounded
  · intro node member
    obtain ⟨⟨index, node⟩, covered, rfl⟩ := List.mem_map.mp member
    obtain ⟨found, rfl, rfl⟩ := Chart.mem_covering.mp covered
    refine ⟨(filled.sound.derivation index found).derives.features, ?_⟩
    rcases (filled.sound.supported index node found).named with ⟨terminal, _⟩ | named
    · exact Or.inl terminal
    · exact Or.inr named

end Grammar
end Concord
