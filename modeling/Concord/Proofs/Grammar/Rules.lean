import Concord.Grammar.Basic
import Concord.Proofs.Feature.Order
import Std.Data.TreeMap.Lemmas

namespace Concord

namespace Index

variable {κ α : Type} {order : κ → κ → Ordering}

theorem find_file [DecidableEq κ] [Std.TransCmp order] [Std.LawfulEqCmp order]
    (key : α → Option κ) (item : α) (index : Index κ α order) (k : κ) :
    (file key item index).find k =
      if key item = some k then item :: index.find k else index.find k := by
  unfold file find
  cases filed : key item with
  | none => simp
  | some k' =>
    by_cases same : k' = k
    · subst same
      simp [Std.TreeMap.getD_eq_getD_getElem?]
    · have apart : order k' k ≠ .eq := fun equal => same (Std.LawfulEqCmp.eq_of_compare equal)
      simp [Std.TreeMap.getD_alter, same, apart]

theorem find_of [DecidableEq κ] [Std.TransCmp order] [Std.LawfulEqCmp order]
    (key : α → Option κ) (items : List α) (k : κ) :
    (of order key items).find k = items.filter fun item => key item = some k := by
  induction items with
  | nil => simp [of, find]
  | cons item rest step =>
    have filed := find_file key item (of order key rest) k
    rw [step] at filed
    refine filed.trans ?_
    by_cases under : key item = some k
    · simp [under]
    · simp [under]

theorem mem_keys_of [DecidableEq κ] [Std.TransCmp order] [Std.LawfulEqCmp order]
    (key : α → Option κ) (items : List α) (k : κ) :
    k ∈ (of order key items).keys ↔ ∃ item ∈ items, key item = some k := by
  rw [Std.TreeMap.mem_keys]
  induction items with
  | nil => simp [of]
  | cons item rest step =>
    change k ∈ file key item (of order key rest) ↔ _
    rw [file]
    simp only [List.mem_cons, exists_eq_or_imp, ← step]
    cases filed : key item with
    | none => simp
    | some k' =>
      by_cases same : k' = k
      · subst same
        simp
      · have apart : order k' k ≠ .eq := fun equal => same (Std.LawfulEqCmp.eq_of_compare equal)
        simp [Std.TreeMap.mem_alter, apart, same]

end Index

instance : Std.TransCmp pairOrder := inferInstanceAs (Std.TransCmp (compareLex _ _))

instance : Std.LawfulEqCmp pairOrder := inferInstanceAs (Std.LawfulEqCmp (compareLex _ _))

def Features.Conflict (left right : Features) (axis : Axis) : Prop :=
  ∃ a b, left.get axis = some a ∧ right.get axis = some b ∧ a ≠ b

theorem Features.Conflict.symm {left right : Features} {axis : Axis}
    (conflict : left.Conflict right axis) : right.Conflict left axis := by
  obtain ⟨a, b, here, there, apart⟩ := conflict
  exact ⟨b, a, there, here, apart.symm⟩

theorem Features.agreeOn_iff {left right : Features} {axis : Axis} :
    left.agreeOn right axis = true ↔ ¬ left.Conflict right axis := by
  unfold agreeOn Conflict
  cases here : left.get axis with
  | none => simp
  | some a =>
    cases there : right.get axis with
    | none => simp
    | some b => simp

theorem Features.agree_iff {left right : Features} {axes : List Axis} :
    left.agree right axes = true ↔ ∀ axis ∈ axes, ¬ left.Conflict right axis := by
  simp [agree, List.all_eq_true, agreeOn_iff]

namespace Rule

theorem pairKey_eq {rule : Rule} {left right : String} :
    rule.pairKey = some (left, right) ↔ rule.production = .binary left right := by
  cases made : rule.production <;> simp [pairKey, made]

theorem childKey_eq {rule : Rule} {child : String} :
    rule.childKey = some child ↔ rule.production = .unary child := by
  cases made : rule.production <;> simp [childKey, made]

-- A whole made of two parts by a binary rule. Heads other than 0 stand for the right part; a
-- loaded grammar has no head but 0 and 1.
structure Joins (rule : Rule) (left right whole : Category) : Prop where
  symbol : rule.symbol = whole.symbol
  production : rule.production = .binary left.symbol right.symbol
  agreement : ∀ axis ∈ rule.constraints, ¬ left.features.Conflict right.features axis
  leftHead : rule.head = 0 → whole.features = left.features
  rightHead : rule.head ≠ 0 → whole.features = right.features

structure Raises (rule : Rule) (part whole : Category) : Prop where
  symbol : rule.symbol = whole.symbol
  production : rule.production = .unary part.symbol
  features : whole.features = part.features

theorem project_iff {rule : Rule} {left right features : Features} :
    rule.project left right = some features ↔
      (∀ axis ∈ rule.constraints, ¬ left.Conflict right axis) ∧
        (rule.head = 0 → features = left) ∧ (rule.head ≠ 0 → features = right) := by
  unfold project
  rw [← Features.agree_iff]
  by_cases agreed : left.agree right rule.constraints = true
  · by_cases head : rule.head = 0
    · simp [agreed, head, eq_comm]
    · simp [agreed, head, eq_comm]
  · simp [agreed]

end Rule

namespace Grammar

variable {grammar : Grammar} {rule : Rule}

theorem rulesFor_eq (grammar : Grammar) (symbol : String) :
    grammar.rulesFor symbol = grammar.rules.filter fun rule => rule.symbol = symbol := by
  unfold rulesFor
  rw [grammar.bySymbol_eq, Index.find_of]
  simp only [Rule.symbolKey, Option.some.injEq]

theorem binaryRules_eq (grammar : Grammar) (left right : String) :
    grammar.binaryRules left right =
      grammar.rules.filter fun rule => rule.production = .binary left right := by
  unfold binaryRules
  rw [grammar.byPair_eq, Index.find_of]
  simp only [Rule.pairKey_eq]

theorem unaryRules_eq (grammar : Grammar) (child : String) :
    grammar.unaryRules child = grammar.rules.filter fun rule => rule.production = .unary child := by
  unfold unaryRules
  rw [grammar.byChild_eq, Index.find_of]
  simp only [Rule.childKey_eq]

theorem nonterminals_sorted (grammar : Grammar) :
    grammar.nonterminals.Pairwise fun a b => compare a b = .lt := Std.TreeMap.ordered_keys

theorem mem_nonterminals {symbol : String} :
    symbol ∈ grammar.nonterminals ↔ ∃ rule ∈ grammar.rules, rule.symbol = symbol := by
  unfold nonterminals
  rw [grammar.bySymbol_eq, Index.mem_keys_of]
  simp only [Rule.symbolKey, Option.some.injEq]

theorem mem_binaryRules {left right : String} :
    rule ∈ grammar.binaryRules left right ↔
      rule ∈ grammar.rules ∧ rule.production = .binary left right := by
  rw [binaryRules_eq, List.mem_filter, decide_eq_true_iff]

theorem mem_unaryRules {child : String} :
    rule ∈ grammar.unaryRules child ↔
      rule ∈ grammar.rules ∧ rule.production = .unary child := by
  rw [unaryRules_eq, List.mem_filter, decide_eq_true_iff]

theorem mem_combine {left right : Category} {features : Features} :
    (rule, features) ∈ grammar.combine left right ↔
      rule ∈ grammar.rules ∧ rule.Joins left right ⟨rule.symbol, features⟩ := by
  unfold combine
  rw [List.mem_filterMap]
  constructor
  · rintro ⟨used, listed, projected⟩
    obtain ⟨passed, inherited, same⟩ := Option.map_eq_some_iff.mp projected
    cases same
    obtain ⟨member, production⟩ := mem_binaryRules.mp listed
    obtain ⟨agreement, leftHead, rightHead⟩ := Rule.project_iff.mp inherited
    exact ⟨member, rfl, production, agreement, leftHead, rightHead⟩
  · rintro ⟨member, joins⟩
    have projected : rule.project left.features right.features = some features :=
      Rule.project_iff.mpr ⟨joins.agreement, joins.leftHead, joins.rightHead⟩
    exact ⟨rule, mem_binaryRules.mpr ⟨member, joins.production⟩, by rw [projected]; rfl⟩

end Grammar
end Concord
