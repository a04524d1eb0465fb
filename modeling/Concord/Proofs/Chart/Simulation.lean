import Concord.Proofs.Chart.Extraction

namespace Concord

variable {α β : Type} {view : Category → α} {size : Nat} {tags tags' : List (List Category)}

-- A view tells what matters about a category.
def Echoes (view : Category → α) (size : Nat) (tags tags' : List (List Category)) : Prop :=
  ∀ position < size, (tags.getD position []).map view ⊆ (tags'.getD position []).map view

def SameReadings (view : Category → α) (size : Nat) (tags tags' : List (List Category)) : Prop :=
  Echoes view size tags tags' ∧ Echoes view size tags' tags

namespace Chart

variable {chart chart' : Chart}

-- Nothing that one chart shows is lost in another, in any cell, and no symbol that covers the sentence
-- fails to do so there.
structure Keeps (view : Category → α) (size : Nat) (chart chart' : Chart) : Prop where
  cells : ∀ first last, first ≤ last → last < size →
    ∃ nodes nodes', chart.nodesAt first last = .ok nodes ∧ chart'.nodesAt first last = .ok nodes' ∧
      nodes.map (view ·.category) ⊆ nodes'.map (view ·.category)
  answers : ∀ symbol, ∃ answer answer', chart.isGrammatical symbol = .ok answer ∧
    chart'.isGrammatical symbol = .ok answer' ∧ (answer = true → answer' = true)

structure Alike (view : Category → α) (size : Nat) (chart chart' : Chart) : Prop where
  cells : ∀ first last, first ≤ last → last < size →
    ∃ nodes nodes', chart.nodesAt first last = .ok nodes ∧ chart'.nodesAt first last = .ok nodes' ∧
      ∀ shown, shown ∈ nodes.map (view ·.category) ↔ shown ∈ nodes'.map (view ·.category)
  answers : ∀ symbol, ∃ answer, chart.isGrammatical symbol = .ok answer ∧
    chart'.isGrammatical symbol = .ok answer

theorem Keeps.alike (there : chart.Keeps view size chart') (back : chart'.Keeps view size chart) :
    chart.Alike view size chart' where
  cells := by
    intro first last forward inside
    obtain ⟨nodes, nodes', read, read', within⟩ := there.cells first last forward inside
    obtain ⟨again', again, reread', reread, within'⟩ := back.cells first last forward inside
    cases Except.ok.inj (read.symm.trans reread)
    cases Except.ok.inj (read'.symm.trans reread')
    exact ⟨nodes, nodes', read, read', fun shown => ⟨fun seen => within seen, fun seen => within' seen⟩⟩
  answers := by
    intro symbol
    obtain ⟨answer, answer', asked, asked', implied⟩ := there.answers symbol
    obtain ⟨again', again, reasked', reasked, implied'⟩ := back.answers symbol
    cases Except.ok.inj (asked.symm.trans reasked)
    cases Except.ok.inj (asked'.symm.trans reasked')
    have same : answer = answer' := Bool.eq_iff_iff.mpr ⟨implied, implied'⟩
    exact ⟨answer, asked, same ▸ asked'⟩

theorem Keeps.less (keeps : chart.Keeps view size chart') (less : α → β) :
    chart.Keeps (fun category => less (view category)) size chart' where
  cells := by
    intro first last forward inside
    obtain ⟨nodes, nodes', read, read', within⟩ := keeps.cells first last forward inside
    refine ⟨nodes, nodes', read, read', ?_⟩
    have mapped := List.map_subset less within
    rwa [List.map_map, List.map_map] at mapped
  answers := keeps.answers

end Chart

namespace Grammar

variable {grammar grammar' : Grammar} {words : List String} {chart chart' : Chart} {first last : Nat}
  {category : Category}

-- One grammar makes of parts that look the same what another makes of them, up to the view.
structure Follows (grammar : Grammar) (view : Category → α) (grammar' : Grammar) : Prop where
  raises : ∀ rule ∈ grammar.rules, ∀ part whole part', rule.Raises part whole →
    view part = view part' →
    ∃ rule' ∈ grammar'.rules, ∃ whole', rule'.Raises part' whole' ∧ view whole = view whole'
  joins : ∀ rule ∈ grammar.rules, ∀ left right whole left' right', rule.Joins left right whole →
    view left = view left' → view right = view right' →
    ∃ rule' ∈ grammar'.rules, ∃ whole', rule'.Joins left' right' whole' ∧ view whole = view whole'

theorem derives_reading {position : Nat} (member : category ∈ tags.getD position []) :
    grammar.Derives tags position position category := by
  rw [List.getD_eq_getElem?_getD] at member
  cases listed : tags[position]? with
  | none =>
    rw [listed] at member
    cases member
  | some categories =>
    rw [listed] at member
    exact .token listed member

-- By induction on the derivation: each step of it is followed by one of the other grammar.
theorem Derives.follow (derives : grammar.Derives tags first last category)
    (follows : grammar.Follows view grammar') (echoes : Echoes view size tags tags')
    (inside : last < size) :
    ∃ category', grammar'.Derives tags' first last category' ∧ view category = view category' := by
  induction derives with
  | @token position categories category listed member =>
    have reading : category ∈ tags.getD position [] := by
      rw [List.getD_eq_getElem?_getD, listed]
      exact member
    have seen := echoes position inside (List.mem_map_of_mem reading)
    obtain ⟨category', member', same⟩ := List.mem_map.mp seen
    exact ⟨category', derives_reading member', same.symm⟩
  | @unary first last rule part whole known raises below step =>
    obtain ⟨part', below', same⟩ := step inside
    obtain ⟨rule', known', whole', raises', same'⟩ := follows.raises rule known part whole part' raises same
    exact ⟨whole', .unary known' raises' below', same'⟩
  | @binary first cut last rule left right whole known joins lefts rights stepLeft stepRight =>
    have ordered := rights.forward
    obtain ⟨left', lefts', sameLeft⟩ := stepLeft (by omega)
    obtain ⟨right', rights', sameRight⟩ := stepRight inside
    obtain ⟨rule', known', whole', joins', same⟩ :=
      follows.joins rule known left right whole left' right' joins sameLeft sameRight
    exact ⟨whole', .binary known' joins' lefts' rights', same⟩

theorem Filled.keeps (filled : grammar.Filled words tags chart)
    (filled' : grammar'.Filled words tags' chart') (follows : grammar.Follows view grammar')
    (echoes : Echoes view words.length tags tags')
    (labelled : ∀ category category', view category = view category' → category.symbol = category'.symbol) :
    chart.Keeps view words.length chart' where
  cells := by
    intro first last forward inside
    obtain ⟨nodes, read, exact⟩ := filled.categories ⟨forward, inside⟩
    obtain ⟨nodes', read', exact'⟩ := filled'.categories ⟨forward, inside⟩
    refine ⟨nodes, nodes', read, read', ?_⟩
    intro shown member
    obtain ⟨node, listed, rfl⟩ := List.mem_map.mp member
    have derives := (exact node.category).mp (List.mem_map_of_mem listed)
    obtain ⟨category', derives', same⟩ := derives.follow follows echoes inside
    obtain ⟨node', listed', rfl⟩ := List.mem_map.mp ((exact' category').mpr derives')
    exact List.mem_map.mpr ⟨node', listed', same.symm⟩
  answers := by
    intro symbol
    obtain ⟨answer, asked, exact⟩ := filled.isGrammatical symbol
    obtain ⟨answer', asked', exact'⟩ := filled'.isGrammatical symbol
    refine ⟨answer, answer', asked, asked', ?_⟩
    intro yes
    obtain ⟨nonempty, features, derives⟩ := exact.mp yes
    have counted : 0 < words.length := List.length_pos_iff.mpr nonempty
    obtain ⟨category', derives', same⟩ := derives.follow follows echoes (by omega)
    obtain rfl : symbol = category'.symbol := labelled _ _ same
    exact exact'.mpr ⟨nonempty, category'.features, derives'⟩

def clause (axes : List Axis) : Grammar where
  start := "S"
  rules := [⟨"S", 0, .binary "N" "V", axes, 1⟩]
  terminals := ⟨[], .nil⟩

def clauseTags (noun verb : Features) : List (List Category) := [[⟨"N", noun⟩], [⟨"V", verb⟩]]

end Grammar
end Concord
