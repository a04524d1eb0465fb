import Concord.Proofs.FirstOccurrences
import Concord.Proofs.Parsing.UnknownWords
import Concord.Proofs.Tree.Bracketed

namespace Concord

variable {grammar : Grammar} {words : List String} {tags : List (List Category)} {chart : Chart}
  {first last last' : Nat} {category category' : Category} {tree tree' : Tree}

namespace Grammar

theorem Derivation.stop_eq (derivation : grammar.Derivation words tags first last category tree) :
    tree.extent.stop = last + 1 := by
  rw [derivation.top.2]

-- Two derivations from one place on. A token takes one place and a right part starts where the left one
-- stops, so the shape leaves no choice.
theorem Derivation.eq_of_bare (derivation : grammar.Derivation words tags first last category tree)
    (other : grammar.Derivation words tags first last' category' tree') (same : tree.bare = tree'.bare) :
    tree = tree' := by
  induction derivation generalizing last' category' tree' with
  | token word listed member =>
    cases other with
    | token word' listed' member' => simpa [Tree.bare, Tree.bareAll] using same
    | unary known raises below => cases below <;> simp [Tree.bare, Tree.bareAll] at same
    | binary known joins lefts rights => simp [Tree.bare, Tree.bareAll] at same
  | @unary first last rule part whole below known raises derived step =>
    cases other with
    | token word listed member => cases derived <;> simp [Tree.bare, Tree.bareAll] at same
    | @unary _ _ _ _ _ below' known' raises' derived' =>
      obtain ⟨symbols, shapes⟩ : whole.symbol = category'.symbol ∧ below.bare = below'.bare := by
        simpa [Tree.bare, Tree.bareAll] using same
      obtain rfl := step derived' shapes
      rw [symbols, derived.stop_eq.symm.trans derived'.stop_eq]
    | binary known joins lefts rights => simp [Tree.bare, Tree.bareAll] at same
  | @binary first cut last rule left right whole leftTree rightTree known joins lefts rights stepLeft stepRight =>
    cases other with
    | token word listed member => simp [Tree.bare, Tree.bareAll] at same
    | unary known raises below => simp [Tree.bare, Tree.bareAll] at same
    | @binary _ cut' _ _ _ _ _ leftTree' rightTree' known' joins' lefts' rights' =>
      obtain ⟨symbols, leftShapes, rightShapes⟩ : whole.symbol = category'.symbol ∧
          leftTree.bare = leftTree'.bare ∧ rightTree.bare = rightTree'.bare := by
        simpa [Tree.bare, Tree.bareAll] using same
      obtain rfl := stepLeft lefts' leftShapes
      obtain rfl : cut = cut' := Nat.succ.inj (lefts.stop_eq.symm.trans lefts'.stop_eq)
      obtain rfl := stepRight rights' rightShapes
      rw [symbols, rights.stop_eq.symm.trans rights'.stop_eq]

end Grammar

def Chart.Unmarked (chart : Chart) : Prop :=
  (∀ word ∈ chart.words.toList, Concord.Unmarked word) ∧
    ∀ node ∈ chart.nodes.toList, Concord.Unmarked node.category.symbol

instance (chart : Chart) : Decidable chart.Unmarked := inferInstanceAs (Decidable (_ ∧ _))

namespace Grammar

theorem Filled.unmarked_symbol (filled : grammar.Filled words tags chart) (unmarked : chart.Unmarked)
    (derives : grammar.Derives tags first last category) (inside : last < words.length) :
    Unmarked category.symbol := by
  obtain ⟨node, member, rfl⟩ := (filled.holds_iff ⟨derives.forward, inside⟩).mpr derives
  obtain ⟨⟨index, node⟩, covered, rfl⟩ := List.mem_map.mp member
  exact unmarked.2 node (by simpa using Array.mem_of_getElem? (Chart.mem_covering.mp covered).1)

theorem Filled.unmarked_values (filled : grammar.Filled words tags chart) (unmarked : chart.Unmarked)
    (derivation : grammar.Derivation words tags first last category tree) (inside : last < words.length) :
    ∀ value ∈ tree.values, Unmarked value := by
  have top := filled.unmarked_symbol unmarked derivation.derives inside
  induction derivation with
  | @token position text categories category word listed member =>
    have spoken : text ∈ chart.words.toList := filled.words_eq ▸ List.mem_of_getElem? word
    simpa [Tree.values, Tree.valuesOfAll] using ⟨top, unmarked.1 text spoken⟩
  | unary known raises below step =>
    have parts := step inside (filled.unmarked_symbol unmarked below.derives inside)
    simpa [Tree.values, Tree.valuesOfAll] using ⟨top, parts⟩
  | @binary first cut last rule left right whole leftTree rightTree known joins lefts rights stepLeft stepRight =>
    have before : cut < words.length := by
      have forward := rights.derives.forward
      omega
    have leftParts := stepLeft before (filled.unmarked_symbol unmarked lefts.derives before)
    have rightParts := stepRight inside (filled.unmarked_symbol unmarked rights.derives inside)
    simp only [Tree.values, Tree.valuesOfAll, List.append_nil, List.forall_mem_cons, List.forall_mem_append]
    exact ⟨top, leftParts, rightParts⟩

theorem Filled.listed_spans (filled : grammar.Filled words tags chart) {symbol : String} {trees : List Tree}
    (read : chart.trees symbol = .ok trees) (listed : tree ∈ trees) :
    words ≠ [] ∧ ∃ features, grammar.Spans words tags ⟨symbol, features⟩ tree := by
  have spans := filled.trees_span symbol
  rw [← Except.ok.inj (read.symm.trans (filled.sound.filed.trees_eq filled.sound.rooted symbol))] at spans
  obtain ⟨place, bound, rfl⟩ := List.mem_iff_getElem.mp listed
  have inside : place < (chart.topFeatures symbol).length := spans.length_eq ▸ bound
  exact ⟨((filled.mem_topFeatures symbol _).mp (List.getElem_mem inside)).1, _, spans.get inside bound⟩

theorem Filled.bracketed_eq_iff (filled : grammar.Filled words tags chart) (unmarked : chart.Unmarked)
    {symbol symbol' : String} {trees trees' : List Tree} (read : chart.trees symbol = .ok trees)
    (read' : chart.trees symbol' = .ok trees') (listed : tree ∈ trees) (listed' : tree' ∈ trees') :
    tree.bracketed = tree'.bracketed ↔ tree = tree' := by
  obtain ⟨nonempty, features, spans⟩ := filled.listed_spans read listed
  obtain ⟨-, features', spans'⟩ := filled.listed_spans read' listed'
  have inside : words.length - 1 < words.length := Nat.sub_one_lt (mt List.length_eq_zero_iff.mp nonempty)
  constructor
  · intro same
    exact spans.derivation.eq_of_bare spans'.derivation ((Tree.bracketed_eq_iff
      (filled.unmarked_values unmarked spans.derivation inside)
      (filled.unmarked_values unmarked spans'.derivation inside)).mp same)
  · rintro rfl
    rfl

end Grammar

theorem Parser.Reports.distinct_bracketed {parser : Parser} {tokens : List String} {parse : Parse}
    (reports : parser.Reports tokens parse) (unmarked : parse.chart.Unmarked) :
    FirstOccurrences (parse.trees.map Tree.bracketed) (parse.distinctTrees.map Tree.bracketed) := by
  have apart : ∀ a ∈ parse.trees, ∀ b ∈ parse.trees, a.bracketed = b.bracketed → a = b :=
    fun a listed b listed' =>
      (reports.filled.bracketed_eq_iff unmarked reports.trees reports.trees listed listed').mp
  unfold Parse.distinctTrees
  rw [← eraseDups_map apart]
  exact firstOccurrences_eraseDups _

theorem bracketed_exact :
    (∀ a b : Tree, (∀ value ∈ a.values, Unmarked value) → (∀ value ∈ b.values, Unmarked value) →
      (a.bracketed = b.bracketed ↔ a.bare = b.bare)) ∧
    (∀ (grammar : Grammar) words tags, ∃ chart, grammar.chart words tags = .ok chart ∧
      ∀ symbol symbol', ∃ trees trees', chart.trees symbol = .ok trees ∧ chart.trees symbol' = .ok trees' ∧
        (chart.Unmarked → ∀ a ∈ trees, ∀ b ∈ trees', a.bracketed = b.bracketed ↔ a = b)) ∧
    ∀ (parser : Parser) tokens, ∃ parse, parser.parse tokens = .ok parse ∧
      FirstOccurrences parse.trees parse.distinctTrees ∧
      (parse.chart.Unmarked →
        FirstOccurrences (parse.trees.map Tree.bracketed) (parse.distinctTrees.map Tree.bracketed)) := by
  refine ⟨fun a b => Tree.bracketed_eq_iff, ?_, ?_⟩
  · intro grammar words tags
    obtain ⟨chart, run, filled⟩ := grammar.chart_filled words tags
    refine ⟨chart, run, fun symbol symbol' => ?_⟩
    have read (symbol : String) := filled.sound.filed.trees_eq filled.sound.rooted symbol
    exact ⟨_, _, read symbol, read symbol', fun unmarked a listed b listed' =>
      filled.bracketed_eq_iff unmarked (read symbol) (read symbol') listed listed'⟩
  · intro parser tokens
    obtain ⟨parse, run, reports⟩ := parser.parse_reports tokens
    exact ⟨parse, run, firstOccurrences_eraseDups _, reports.distinct_bracketed⟩

def homeReadings : Morphology := fun token =>
  if token = "yedi" then
    .ok [⟨"ye", none, { tense := some "Past" }⟩, ⟨"ye", none, { tense := some "Present" }⟩]
  else .ok [⟨token, none, .empty⟩]

-- A tree at two places, and a clause that was found twice.
theorem homeClause_bracketed :
    (let here := Tree.branch "N" ⟨0, 1⟩ [.leaf "ev" ⟨0, 1⟩]
      let there := Tree.branch "N" ⟨3, 4⟩ [.leaf "ev" ⟨3, 4⟩]
      (∀ value ∈ here.values, Unmarked value) ∧ (∀ value ∈ there.values, Unmarked value) ∧
        (here.bracketed = there.bracketed ↔ here.bare = there.bare) ∧ here.bracketed = "(N ev)") ∧
    (∃ chart trees, homeClause.chart ["ev", "yedi"] [[⟨"N", .empty⟩], [⟨"V", .empty⟩]] = .ok chart ∧
      chart.trees "S" = .ok trees ∧ chart.Unmarked ∧ ∀ a ∈ trees, ∀ b ∈ trees, a.bracketed = b.bracketed ↔ a = b) ∧
    ∃ parse, Parser.parse ⟨homeClause, homeReadings⟩ ["ev", "yedi"] = .ok parse ∧ parse.chart.Unmarked ∧
      parse.trees.map Tree.bracketed = ["(S (N ev) (V yedi))", "(S (N ev) (V yedi))"] ∧
      FirstOccurrences (parse.trees.map Tree.bracketed) (parse.distinctTrees.map Tree.bracketed) := by
  refine ⟨⟨by decide, by decide, bracketed_exact.1 _ _ (by decide) (by decide), by decide⟩, ?_, ?_⟩
  · obtain ⟨chart, run, exact⟩ := bracketed_exact.2.1 homeClause ["ev", "yedi"] [[⟨"N", .empty⟩], [⟨"V", .empty⟩]]
    obtain ⟨trees, trees', read, read', apart⟩ := exact "S" "S"
    have seen : (homeClause.chart ["ev", "yedi"] [[⟨"N", .empty⟩], [⟨"V", .empty⟩]]).toOption.map
        (decide <| Chart.Unmarked ·) = some true := by
      decide +kernel
    rw [run] at seen
    have unmarked : chart.Unmarked := of_decide_eq_true (Option.some.inj seen)
    cases read.symm.trans read'
    exact ⟨chart, trees, run, read, unmarked, apart unmarked⟩
  · obtain ⟨parse, run, -, once⟩ := bracketed_exact.2.2 ⟨homeClause, homeReadings⟩ ["ev", "yedi"]
    have seen : (Parser.parse ⟨homeClause, homeReadings⟩ ["ev", "yedi"]).toOption.map
        (fun parse => (decide parse.chart.Unmarked, parse.trees.map Tree.bracketed)) =
          some (true, ["(S (N ev) (V yedi))", "(S (N ev) (V yedi))"]) := by
      decide +kernel
    rw [run] at seen
    obtain ⟨plain, texts⟩ := Prod.mk.inj (Option.some.inj seen)
    have unmarked : parse.chart.Unmarked := of_decide_eq_true plain
    exact ⟨parse, run, unmarked, texts, once unmarked⟩

end Concord
