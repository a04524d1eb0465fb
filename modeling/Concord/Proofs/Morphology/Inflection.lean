import Concord.Proofs.Feature.Labels
import Concord.Proofs.Morphology.Stemming

namespace Concord

namespace Suffix

def Innermost (taken : List Suffix) (axis : Axis) (value : String) : Prop :=
  ∃ outer suffix inner, taken = outer ++ suffix :: inner ∧
    (Features.ofCategories [suffix.category]).get axis = some value ∧
      ∀ deeper ∈ inner, (Features.ofCategories [deeper.category]).get axis = none

theorem innermost_iff {taken : List Suffix} {axis : Axis} {value : String} :
    (Features.ofCategories (taken.map Suffix.category)).get axis = some value ↔ Innermost taken axis value := by
  rw [Features.get_ofCategories, List.filterMap_map, getLast?_filterMap_eq_some]
  rfl

end Suffix

namespace Stemmer

structure Inflects (stemmer : Stemmer) (token base : String) (taken : List Suffix) (analysis : Analysis) : Prop where
  analysed : stemmer.analyze token = .ok [analysis]
  stem : analysis.stem = (stemmer.stem token).text
  explains : stemmer.Explains token (stemmer.stem token) base taken
  innermost : ∀ axis value, analysis.features.get axis = some value ↔ Suffix.Innermost taken axis value

theorem analyze_inflects (stemmer : Stemmer) (token : String) :
    ∃ base taken analysis, stemmer.Inflects token base taken analysis := by
  obtain ⟨base, taken, explains⟩ := stemmer.stem_explained token
  refine ⟨base, taken, _, rfl, rfl, explains, ?_⟩
  intro axis value
  dsimp only
  rw [explains.categories, Suffix.innermost_iff]

end Stemmer

namespace Features

theorem ofCategories_exact :
    (∀ labels : List String, Reads labels (ofCategories labels) ∧
      ofCategories labels = Labels.tables.foldl (fun features table => labels.foldl (read table) features) empty) ∧
    (∀ labels others : List String,
      ofCategories (labels ++ others) = (ofCategories labels).overlay (ofCategories others)) ∧
    ∀ (stemmer : Stemmer) (token : String), ∃ base taken analysis, stemmer.Inflects token base taken analysis := by
  refine ⟨?_, ofCategories_append, Stemmer.analyze_inflects⟩
  intro labels
  exact ⟨ofCategories_reads labels, ofCategories_eq_foldl labels⟩

-- The plural of the third person counts where it stands first, and "Plural" behind it is no part of it.
example : ofCategories ["2nd", "3rdPL1st", "PastPluralFuture", "Presence"] =
    { person := some "3rdPL", tense := some "Past", number := some "Plural" } := by decide

end Features
end Concord
