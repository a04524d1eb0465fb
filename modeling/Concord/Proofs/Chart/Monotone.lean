import Concord.Proofs.Chart.Simulation

namespace Concord

structure Rule.Relaxes (loose strict : Rule) : Prop where
  symbol : loose.symbol = strict.symbol
  production : loose.production = strict.production
  head : loose.head = strict.head
  constraints : loose.constraints ⊆ strict.constraints

namespace Rule

variable {loose strict : Rule} {part left right whole : Category}

theorem Relaxes.raises (relaxes : loose.Relaxes strict) (raises : strict.Raises part whole) :
    loose.Raises part whole where
  symbol := relaxes.symbol.trans raises.symbol
  production := relaxes.production.trans raises.production
  features := raises.features

theorem Relaxes.joins (relaxes : loose.Relaxes strict) (joins : strict.Joins left right whole) :
    loose.Joins left right whole where
  symbol := relaxes.symbol.trans joins.symbol
  production := relaxes.production.trans joins.production
  agreement := fun axis member => joins.agreement axis (relaxes.constraints member)
  leftHead := fun head => joins.leftHead (relaxes.head.symm.trans head)
  rightHead := fun other => joins.rightHead fun head => other (relaxes.head.trans head)

end Rule

namespace Grammar

variable {grammar grammar' : Grammar}

def Covers (grammar' grammar : Grammar) : Prop :=
  ∀ rule ∈ grammar.rules, ∃ rule' ∈ grammar'.rules, rule'.Relaxes rule

theorem Covers.follows (covers : grammar'.Covers grammar) : grammar.Follows id grammar' where
  raises := by
    intro rule known part whole part' raises same
    obtain rfl : part = part' := same
    obtain ⟨rule', known', relaxes⟩ := covers rule known
    exact ⟨rule', known', whole, relaxes.raises raises, rfl⟩
  joins := by
    intro rule known left right whole left' right' joins sameLeft sameRight
    obtain rfl : left = left' := sameLeft
    obtain rfl : right = right' := sameRight
    obtain ⟨rule', known', relaxes⟩ := covers rule known
    exact ⟨rule', known', whole, relaxes.joins joins, rfl⟩

theorem Filled.keeps_of_covers {words : List String} {tags tags' : List (List Category)}
    {chart chart' : Chart} (filled : grammar.Filled words tags chart)
    (filled' : grammar'.Filled words tags' chart') (covers : grammar'.Covers grammar)
    (echoes : Echoes id words.length tags tags') : chart.Keeps id words.length chart' := by
  apply filled.keeps filled' covers.follows echoes
  intro category category' same
  exact congrArg Category.symbol same

-- Grammars that cover each other have the same rules in some order, and taggings that echo each
-- other the same readings.
theorem larger_loses_nothing (grammar grammar' : Grammar) (words : List String)
    (tags tags' : List (List Category)) (covers : grammar'.Covers grammar)
    (echoes : Echoes id words.length tags tags') :
    ∃ chart chart', grammar.chart words tags = .ok chart ∧ grammar'.chart words tags' = .ok chart' ∧
      chart.Keeps id words.length chart' ∧
      (grammar.Covers grammar' → Echoes id words.length tags' tags →
        chart.Alike id words.length chart') := by
  obtain ⟨chart, run, filled⟩ := grammar.chart_filled words tags
  obtain ⟨chart', run', filled'⟩ := grammar'.chart_filled words tags'
  have keeps := filled.keeps_of_covers filled' covers echoes
  refine ⟨chart, chart', run, run', keeps, ?_⟩
  intro covers' echoes'
  exact keeps.alike (filled'.keeps_of_covers filled covers' echoes')

-- The noun and the verb differ in person, so only the grammar without constraints makes a clause of
-- them; in the larger tagging the noun has a further reading.
theorem clause_loses_nothing :
    (clause []).Covers (clause [.person, .number]) ∧
      Echoes id 2 (clauseTags { person := some "1st" } { person := some "3rd" })
        ((clauseTags { person := some "1st" } { person := some "3rd" }).modify 0 (⟨"Adv", .empty⟩ :: ·)) ∧
      ∃ chart chart',
        (clause [.person, .number]).chart ["ben", "geldi"]
          (clauseTags { person := some "1st" } { person := some "3rd" }) = .ok chart ∧
        (clause []).chart ["ben", "geldi"]
          ((clauseTags { person := some "1st" } { person := some "3rd" }).modify 0 (⟨"Adv", .empty⟩ :: ·)) =
            .ok chart' ∧
        chart.Keeps id 2 chart' := by
  have covers : (clause []).Covers (clause [.person, .number]) := by
    intro rule known
    cases List.mem_singleton.mp known
    exact ⟨_, List.mem_singleton.mpr rfl, rfl, rfl, rfl, by simp⟩
  have echoes : Echoes id 2 (clauseTags { person := some "1st" } { person := some "3rd" })
      ((clauseTags { person := some "1st" } { person := some "3rd" }).modify 0 (⟨"Adv", .empty⟩ :: ·)) := by
    unfold Echoes
    decide
  obtain ⟨chart, chart', run, run', keeps, _⟩ :=
    larger_loses_nothing _ _ ["ben", "geldi"] _ _ covers echoes
  exact ⟨covers, echoes, chart, chart', run, run', keeps⟩

end Grammar
end Concord
