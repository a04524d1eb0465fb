import Concord.Proofs.Grammar.Rules
import Concord.Proofs.Grammar.WellFormed

namespace Concord.Grammar

variable {grammar : Grammar}

-- The constraints and the head of a rule are looked at only after both of its children have
-- matched, so the order of the rules is kept.
theorem combine_scan (grammar : Grammar) (left right : Category) :
    grammar.combine left right =
      (grammar.rules.filter fun rule =>
        rule.production = .binary left.symbol right.symbol ∧
          left.features.agree right.features rule.constraints).map fun rule =>
        (rule, if rule.head = 0 then left.features else right.features) := by
  unfold combine
  rw [binaryRules_eq]
  induction grammar.rules with
  | nil => rfl
  | cons rule rest step =>
    by_cases fits : rule.production = .binary left.symbol right.symbol
    · by_cases agreed : left.features.agree right.features rule.constraints = true
      · simpa [fits, agreed, Rule.project] using step
      · simpa [fits, agreed, Rule.project] using step
    · simpa [fits] using step

theorem rulesFor_indices {text : String} (loaded : Grammar.ofText text = .ok grammar) (symbol : String) :
    (grammar.rulesFor symbol).map Rule.index = List.range (grammar.rulesFor symbol).length := by
  obtain ⟨file, -, made⟩ := ofText_eq_ok.mp loaded
  obtain ⟨productions, -, written, -⟩ := file.toGrammar_transcribes made
  have indices : (grammar.rulesFor symbol).map Rule.index =
      List.range ((productions.find? symbol).getD []).length := by
    rw [rulesFor_eq, ← GrammarFile.places_of, ← GrammarFile.toGrammar_places written made, List.filter_map,
      List.map_map]
    rfl
  have count := congrArg List.length indices
  rw [List.length_map, List.length_range] at count
  rw [indices, count]

theorem indexes_scan {text : String} (loaded : Grammar.ofText text = .ok grammar) :
    (∀ symbol, grammar.rulesFor symbol = grammar.rules.filter (fun rule => rule.symbol = symbol) ∧
      ∀ (k : Nat) rule, (grammar.rulesFor symbol)[k]? = some rule → rule.index = k) ∧
    (∀ left right, grammar.binaryRules left right =
      grammar.rules.filter fun rule => rule.production = .binary left right) ∧
    (∀ child, grammar.unaryRules child =
      grammar.rules.filter fun rule => rule.production = .unary child) ∧
    (grammar.nonterminals.Pairwise fun a b => compare a b = .lt) ∧
    (∀ symbol, symbol ∈ grammar.nonterminals ↔ ∃ rule ∈ grammar.rules, rule.symbol = symbol) ∧
    ∀ left right, grammar.combine left right =
      (grammar.rules.filter fun rule =>
        rule.production = .binary left.symbol right.symbol ∧
          left.features.agree right.features rule.constraints).map fun rule =>
        (rule, if rule.head = 0 then left.features else right.features) := by
  refine ⟨?_, grammar.binaryRules_eq, grammar.unaryRules_eq, grammar.nonterminals_sorted,
    fun symbol => mem_nonterminals, grammar.combine_scan⟩
  intro symbol
  refine ⟨grammar.rulesFor_eq symbol, ?_⟩
  intro k rule found
  have placed : ((grammar.rulesFor symbol).map Rule.index)[k]? = some rule.index := by
    rw [List.getElem?_map, found, Option.map_some]
  rw [rulesFor_indices loaded] at placed
  obtain ⟨inside, same⟩ := List.getElem?_eq_some_iff.mp placed
  rw [← same, List.getElem_range]

theorem twinText_indexes :
    ∃ grammar, Grammar.ofText twinText = .ok grammar ∧
      grammar.rulesFor "S" = [⟨"S", 0, .binary "A" "B", [.person], 0⟩,
        ⟨"S", 1, .binary "A" "B", [], 0⟩] ∧
      grammar.binaryRules "A" "B" = [⟨"S", 0, .binary "A" "B", [.person], 0⟩,
        ⟨"S", 1, .binary "A" "B", [], 0⟩, ⟨"T", 0, .binary "A" "B", [], 0⟩] ∧
      grammar.unaryRules "A" = [⟨"T", 1, .unary "A", [], 0⟩] := by
  have listed : (Grammar.ofText twinText).toOption.map Grammar.rules =
      some [⟨"S", 0, .binary "A" "B", [.person], 0⟩, ⟨"S", 1, .binary "A" "B", [], 0⟩,
        ⟨"T", 0, .binary "A" "B", [], 0⟩, ⟨"T", 1, .unary "A", [], 0⟩] := by
    decide +kernel
  cases loaded : Grammar.ofText twinText with
  | error error => rw [loaded] at listed; cases listed
  | ok grammar =>
    rw [loaded] at listed
    have rules := Option.some.inj listed
    obtain ⟨bySymbol, byPair, byChild, -⟩ := indexes_scan loaded
    refine ⟨grammar, rfl, ?_, ?_, ?_⟩
    · rw [(bySymbol "S").1, rules]
      decide
    · rw [byPair, rules]
      decide
    · rw [byChild, rules]
      decide

end Concord.Grammar
