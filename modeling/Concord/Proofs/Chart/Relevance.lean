import Concord.Proofs.Chart.Simulation

namespace Concord

variable {axes : List Axis} {axis : Axis}

namespace Features

variable {left right left' right' features : Features}

def restrict (features : Features) (axes : List Axis) : Features where
  person := if .person ∈ axes then features.person else none
  tense := if .tense ∈ axes then features.tense else none
  number := if .number ∈ axes then features.number else none
  other := if .other ∈ axes then features.other else none

theorem get_restrict :
    (features.restrict axes).get axis = if axis ∈ axes then features.get axis else none := by
  cases axis <;> rfl

theorem get_of_restrict_eq (same : left.restrict axes = left'.restrict axes) (member : axis ∈ axes) :
    left.get axis = left'.get axis := by
  have read := congrArg (·.get axis) same
  simp only [get_restrict, if_pos member] at read
  exact read

theorem Conflict.of_restrict_eq (conflict : left'.Conflict right' axis) (member : axis ∈ axes)
    (sameLeft : left.restrict axes = left'.restrict axes)
    (sameRight : right.restrict axes = right'.restrict axes) : left.Conflict right axis := by
  unfold Conflict at conflict ⊢
  rwa [get_of_restrict_eq sameLeft member, get_of_restrict_eq sameRight member]

end Features

def Category.restrict (category : Category) (axes : List Axis) : Category :=
  ⟨category.symbol, category.features.restrict axes⟩

namespace Category

variable {category category' : Category}

theorem symbol_of_restrict_eq (same : category.restrict axes = category'.restrict axes) :
    category.symbol = category'.symbol := by
  change (category.restrict axes).symbol = (category'.restrict axes).symbol
  rw [same]

theorem features_of_restrict_eq (same : category.restrict axes = category'.restrict axes) :
    category.features.restrict axes = category'.features.restrict axes := by
  change (category.restrict axes).features = (category'.restrict axes).features
  rw [same]

end Category

namespace Grammar

variable {grammar : Grammar}

def constrainedAxes (grammar : Grammar) : List Axis := grammar.rules.flatMap Rule.constraints

theorem mem_constrainedAxes {rule : Rule} (known : rule ∈ grammar.rules) (member : axis ∈ rule.constraints) :
    axis ∈ grammar.constrainedAxes :=
  List.mem_flatMap.mpr ⟨rule, known, member⟩

theorem follows_restrict (grammar : Grammar) :
    grammar.Follows (·.restrict grammar.constrainedAxes) grammar where
  raises := by
    intro rule known part whole part' raises same
    refine ⟨rule, known, ⟨whole.symbol, part'.features⟩, ⟨raises.symbol, ?_, rfl⟩, ?_⟩
    · rw [raises.production, Category.symbol_of_restrict_eq same]
    · unfold Category.restrict
      rw [raises.features, Category.features_of_restrict_eq same]
  joins := by
    intro rule known left right whole left' right' joins sameLeft sameRight
    have production : rule.production = .binary left'.symbol right'.symbol := by
      rw [joins.production, Category.symbol_of_restrict_eq sameLeft, Category.symbol_of_restrict_eq sameRight]
    have agreement : ∀ axis ∈ rule.constraints, ¬ left'.features.Conflict right'.features axis := by
      intro axis member conflict
      apply joins.agreement axis member
      exact conflict.of_restrict_eq (mem_constrainedAxes known member)
        (Category.features_of_restrict_eq sameLeft) (Category.features_of_restrict_eq sameRight)
    by_cases head : rule.head = 0
    · refine ⟨rule, known, ⟨whole.symbol, left'.features⟩,
        ⟨joins.symbol, production, agreement, fun _ => rfl, fun other => absurd head other⟩, ?_⟩
      unfold Category.restrict
      rw [joins.leftHead head, Category.features_of_restrict_eq sameLeft]
    · refine ⟨rule, known, ⟨whole.symbol, right'.features⟩,
        ⟨joins.symbol, production, agreement, fun first => absurd first head, fun _ => rfl⟩, ?_⟩
      unfold Category.restrict
      rw [joins.rightHead head, Category.features_of_restrict_eq sameRight]

variable {words : List String} {tags tags' : List (List Category)} {chart chart' : Chart}

theorem Filled.keeps_restrict (filled : grammar.Filled words tags chart)
    (filled' : grammar.Filled words tags' chart')
    (echoes : Echoes (·.restrict grammar.constrainedAxes) words.length tags tags') :
    chart.Keeps (·.restrict grammar.constrainedAxes) words.length chart' := by
  apply filled.keeps filled' grammar.follows_restrict echoes
  intro category category' same
  exact Category.symbol_of_restrict_eq same

theorem echoes_of_unconstrained {size : Nat} (free : ∀ rule ∈ grammar.rules, rule.constraints = [])
    (echoes : Echoes Category.symbol size tags tags') :
    Echoes (·.restrict grammar.constrainedAxes) size tags tags' := by
  have none : grammar.constrainedAxes = [] := List.flatMap_eq_nil_iff.mpr free
  rw [none]
  intro position inside
  have mapped := List.map_subset (fun symbol => (⟨symbol, .empty⟩ : Category)) (echoes position inside)
  rwa [List.map_map, List.map_map] at mapped

theorem Filled.alike_restrict (filled : grammar.Filled words tags chart)
    (filled' : grammar.Filled words tags' chart')
    (same : SameReadings (·.restrict grammar.constrainedAxes) words.length tags tags') :
    chart.Alike (·.restrict grammar.constrainedAxes) words.length chart' ∧
      chart.Alike Category.symbol words.length chart' := by
  have there := filled.keeps_restrict filled' same.1
  have back := filled'.keeps_restrict filled same.2
  exact ⟨there.alike back, (there.less Category.symbol).alike (back.less Category.symbol)⟩

theorem irrelevant_features (grammar : Grammar) (words : List String) (tags tags' : List (List Category)) :
    ∃ chart chart', grammar.chart words tags = .ok chart ∧ grammar.chart words tags' = .ok chart' ∧
      (SameReadings (·.restrict grammar.constrainedAxes) words.length tags tags' →
        chart.Alike (·.restrict grammar.constrainedAxes) words.length chart' ∧
        chart.Alike Category.symbol words.length chart') ∧
      ((∀ rule ∈ grammar.rules, rule.constraints = []) →
        SameReadings Category.symbol words.length tags tags' →
        chart.Alike Category.symbol words.length chart') := by
  obtain ⟨chart, run, filled⟩ := grammar.chart_filled words tags
  obtain ⟨chart', run', filled'⟩ := grammar.chart_filled words tags'
  refine ⟨chart, chart', run, run', filled.alike_restrict filled', ?_⟩
  intro free same
  have restricted : SameReadings (·.restrict grammar.constrainedAxes) words.length tags tags' :=
    ⟨echoes_of_unconstrained free same.1, echoes_of_unconstrained free same.2⟩
  exact (filled.alike_restrict filled' restricted).2

theorem clause_looks_at_person :
    (SameReadings (·.restrict (clause [.person]).constrainedAxes) 2
        (clauseTags { person := some "1st", tense := some "Past" } { person := some "1st" })
        (clauseTags { person := some "1st" } { person := some "1st", number := some "Plural" }) ∧
      ∃ chart chart',
        (clause [.person]).chart ["ben", "geldim"]
          (clauseTags { person := some "1st", tense := some "Past" } { person := some "1st" }) =
            .ok chart ∧
        (clause [.person]).chart ["ben", "geldim"]
          (clauseTags { person := some "1st" } { person := some "1st", number := some "Plural" }) =
            .ok chart' ∧
        chart.Alike (·.restrict (clause [.person]).constrainedAxes) 2 chart' ∧
        chart.Alike Category.symbol 2 chart') ∧
    (∀ rule ∈ (clause []).rules, rule.constraints = []) ∧
      SameReadings Category.symbol 2 (clauseTags { person := some "1st" } { person := some "3rd" })
        (clauseTags .empty .empty) ∧
      ∃ chart chart',
        (clause []).chart ["ben", "geldim"]
          (clauseTags { person := some "1st" } { person := some "3rd" }) = .ok chart ∧
        (clause []).chart ["ben", "geldim"] (clauseTags .empty .empty) = .ok chart' ∧
        chart.Alike Category.symbol 2 chart' := by
  have same : SameReadings (·.restrict (clause [.person]).constrainedAxes) 2
      (clauseTags { person := some "1st", tense := some "Past" } { person := some "1st" })
      (clauseTags { person := some "1st" } { person := some "1st", number := some "Plural" }) := by
    unfold SameReadings Echoes
    decide
  have free : ∀ rule ∈ (clause []).rules, rule.constraints = [] := by
    decide
  have symbols : SameReadings Category.symbol 2
      (clauseTags { person := some "1st" } { person := some "3rd" }) (clauseTags .empty .empty) := by
    unfold SameReadings Echoes
    decide
  obtain ⟨chart, chart', run, run', alike, _⟩ :=
    irrelevant_features (clause [.person]) ["ben", "geldim"] _ _
  obtain ⟨plain, plain', ran, ran', _, unconstrained⟩ :=
    irrelevant_features (clause []) ["ben", "geldim"] _ _
  exact ⟨⟨same, chart, chart', run, run', alike same⟩, free, symbols, plain, plain', ran, ran',
    unconstrained free symbols⟩

end Grammar
end Concord
