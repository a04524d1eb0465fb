import Concord.Proofs.Chart.Simulation

namespace Concord

namespace Rule

variable {rule : Rule} {left right part whole : Category}

-- The children change places and the head stays the child that it was.
def mirror (rule : Rule) : Rule :=
  match rule.production with
  | .unary _ => rule
  | .binary left right => { rule with production := .binary right left, head := 1 - rule.head }

theorem mirror_unary {child : String} (made : rule.production = .unary child) : rule.mirror = rule := by
  unfold mirror
  rw [made]

theorem mirror_binary {left right : String} (made : rule.production = .binary left right) :
    rule.mirror = { rule with production := .binary right left, head := 1 - rule.head } := by
  unfold mirror
  rw [made]

theorem Raises.mirror (raises : rule.Raises part whole) : rule.mirror.Raises part whole := by
  rw [mirror_unary raises.production]
  exact raises

theorem Joins.mirror (joins : rule.Joins left right whole) : rule.mirror.Joins right left whole := by
  rw [mirror_binary joins.production]
  refine ⟨joins.symbol, rfl, fun axis member conflict => joins.agreement axis member conflict.symm, ?_, ?_⟩
  · intro head
    have turned : 1 - rule.head = 0 := head
    exact joins.rightHead (by omega)
  · intro head
    have turned : 1 - rule.head ≠ 0 := head
    exact joins.leftHead (by omega)

theorem Raises.of_mirror (raises : rule.mirror.Raises part whole) : rule.Raises part whole := by
  cases made : rule.production with
  | unary child => rwa [mirror_unary made] at raises
  | binary first second =>
    rw [mirror_binary made] at raises
    cases raises.production

theorem Joins.of_mirror (joins : rule.mirror.Joins right left whole) : rule.Joins left right whole := by
  cases made : rule.production with
  | unary child =>
    rw [mirror_unary made] at joins
    cases made.symm.trans joins.production
  | binary first second =>
    rw [mirror_binary made] at joins
    have children := joins.production
    cases children
    refine ⟨joins.symbol, made, fun axis member conflict => joins.agreement axis member conflict.symm, ?_, ?_⟩
    · intro head
      apply joins.rightHead
      change 1 - rule.head ≠ 0
      omega
    · intro head
      apply joins.leftHead
      change 1 - rule.head = 0
      omega

end Rule

namespace Grammar

variable {grammar grammar' : Grammar} {words : List String} {tags : List (List Category)}
  {chart chart' : Chart} {first last : Nat} {category : Category}

def mirror (grammar : Grammar) : Grammar where
  start := grammar.start
  rules := grammar.rules.map Rule.mirror
  terminals := grammar.terminals

-- Every rule of one grammar is found in another with its children the other way round.
structure Mirrors (grammar grammar' : Grammar) : Prop where
  raises : ∀ rule ∈ grammar.rules, ∃ rule' ∈ grammar'.rules,
    ∀ part whole, rule.Raises part whole → rule'.Raises part whole
  joins : ∀ rule ∈ grammar.rules, ∃ rule' ∈ grammar'.rules,
    ∀ left right whole, rule.Joins left right whole → rule'.Joins right left whole

theorem mirrors_mirror (grammar : Grammar) : grammar.Mirrors grammar.mirror where
  raises := by
    intro rule known
    exact ⟨rule.mirror, List.mem_map_of_mem known, fun part whole raises => raises.mirror⟩
  joins := by
    intro rule known
    exact ⟨rule.mirror, List.mem_map_of_mem known, fun left right whole joins => joins.mirror⟩

theorem mirror_mirrors (grammar : Grammar) : grammar.mirror.Mirrors grammar where
  raises := by
    intro image member
    obtain ⟨rule, known, rfl⟩ := List.mem_map.mp member
    exact ⟨rule, known, fun part whole raises => raises.of_mirror⟩
  joins := by
    intro image member
    obtain ⟨rule, known, rfl⟩ := List.mem_map.mp member
    exact ⟨rule, known, fun left right whole joins => joins.of_mirror⟩

-- By induction on the derivation. Where a span is cut after `cut`, its image is cut before the image
-- of `cut`, and the parts of the image stand in the other order.
theorem Derives.mirror (derives : grammar.Derives tags first last category)
    (mirrors : grammar.Mirrors grammar') (inside : last < tags.length) :
    grammar'.Derives tags.reverse (tags.length - 1 - last) (tags.length - 1 - first) category := by
  induction derives with
  | @token position categories category listed member =>
    have image : tags.reverse[tags.length - 1 - position]? = some categories := by
      rw [List.getElem?_reverse (by omega), ← listed]
      congr 1
      omega
    exact .token image member
  | @unary first last rule part whole known raises below step =>
    obtain ⟨rule', known', turned⟩ := mirrors.raises rule known
    exact .unary known' (turned part whole raises) (step inside)
  | @binary first cut last rule left right whole known joins lefts rights stepLeft stepRight =>
    have ordered := rights.forward
    obtain ⟨rule', known', turned⟩ := mirrors.joins rule known
    have front := stepRight inside
    have back := stepLeft (by omega)
    have meets : tags.length - 1 - cut = tags.length - 1 - (cut + 1) + 1 := by omega
    rw [meets] at back
    exact .binary known' (turned left right whole joins) front back

theorem derives_mirror_iff (inside : first ≤ last ∧ last < tags.length) :
    grammar.mirror.Derives tags.reverse (tags.length - 1 - last) (tags.length - 1 - first) category ↔
      grammar.Derives tags first last category := by
  constructor
  · intro derives
    have turned := derives.mirror grammar.mirror_mirrors (by rw [List.length_reverse]; omega)
    have start : tags.length - 1 - (tags.length - 1 - first) = first := by omega
    have stop : tags.length - 1 - (tags.length - 1 - last) = last := by omega
    rwa [List.reverse_reverse, List.length_reverse, start, stop] at turned
  · intro derives
    exact derives.mirror grammar.mirrors_mirror inside.2

theorem Filled.isGrammatical_mirror (filled : grammar.Filled words tags chart)
    (filled' : grammar.mirror.Filled words.reverse tags.reverse chart')
    (paired : tags.length = words.length) (symbol : String) :
    ∃ answer, chart.isGrammatical symbol = .ok answer ∧ chart'.isGrammatical symbol = .ok answer := by
  obtain ⟨answer, asked, exact⟩ := filled.isGrammatical symbol
  obtain ⟨answer', asked', exact'⟩ := filled'.isGrammatical symbol
  have same : answer = answer' := by
    rw [Bool.eq_iff_iff, exact, exact', List.length_reverse, ← paired, ne_eq, ne_eq,
      List.reverse_eq_nil_iff]
    apply and_congr_right
    intro nonempty
    have counted : 0 < words.length := List.length_pos_iff.mpr nonempty
    apply exists_congr
    intro features
    rw [← derives_mirror_iff ⟨Nat.zero_le _, by omega⟩, Nat.sub_self, Nat.sub_zero]
  exact ⟨answer, asked, same ▸ asked'⟩

theorem mirror_exact (grammar : Grammar) (words : List String) (tags : List (List Category))
    (paired : tags.length = words.length) :
    ∃ chart chart', grammar.chart words tags = .ok chart ∧
      grammar.mirror.chart words.reverse tags.reverse = .ok chart' ∧
      (∀ first last, first ≤ last → last < words.length →
        ∃ nodes nodes', chart.nodesAt first last = .ok nodes ∧
          chart'.nodesAt (words.length - 1 - last) (words.length - 1 - first) = .ok nodes' ∧
          ∀ category, category ∈ nodes.map Node.category ↔ category ∈ nodes'.map Node.category) ∧
      ∀ symbol, ∃ answer, chart.isGrammatical symbol = .ok answer ∧
        chart'.isGrammatical symbol = .ok answer := by
  obtain ⟨chart, run, filled⟩ := grammar.chart_filled words tags
  obtain ⟨chart', run', filled'⟩ := grammar.mirror.chart_filled words.reverse tags.reverse
  refine ⟨chart, chart', run, run', ?_, filled.isGrammatical_mirror filled' paired⟩
  intro first last forward inside
  have image : words.length - 1 - last ≤ words.length - 1 - first ∧
      words.length - 1 - first < words.reverse.length := by
    rw [List.length_reverse]
    omega
  obtain ⟨nodes, read, exact⟩ := filled.categories ⟨forward, inside⟩
  obtain ⟨nodes', read', exact'⟩ := filled'.categories image
  refine ⟨nodes, nodes', read, read', ?_⟩
  intro category
  rw [exact, exact', ← paired, derives_mirror_iff ⟨forward, by omega⟩]

theorem clause_mirror :
    (clauseTags { person := some "1st" } { person := some "1st" }).length = ["ben", "geldim"].length ∧
      ∃ chart chart',
        (clause [.person]).chart ["ben", "geldim"]
          (clauseTags { person := some "1st" } { person := some "1st" }) = .ok chart ∧
        (clause [.person]).mirror.chart ["geldim", "ben"]
          (clauseTags { person := some "1st" } { person := some "1st" }).reverse = .ok chart' ∧
        (∀ first last, first ≤ last → last < 2 →
          ∃ nodes nodes', chart.nodesAt first last = .ok nodes ∧
            chart'.nodesAt (2 - 1 - last) (2 - 1 - first) = .ok nodes' ∧
            ∀ category, category ∈ nodes.map Node.category ↔ category ∈ nodes'.map Node.category) ∧
        ∀ symbol, ∃ answer, chart.isGrammatical symbol = .ok answer ∧
          chart'.isGrammatical symbol = .ok answer :=
  ⟨rfl, mirror_exact (clause [.person]) ["ben", "geldim"] _ rfl⟩

end Grammar
end Concord
