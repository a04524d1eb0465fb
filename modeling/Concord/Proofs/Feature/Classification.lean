import Concord.Grammar.Basic
import Concord.Proofs.Feature.Labels

namespace Concord

namespace Labels

variable {label : String} {forms others : List String}

-- The singular is mentioned, and no form that a suffix marks.
def SingularOnly (label : String) : Prop :=
  "Singular".toList <:+: label.toList ∧
    ¬ Names ["1st", "2nd", "3rd", "Past", "Present", "Future", "Plural"] label

theorem mentions_iff : mentions label forms = true ↔ Names forms label := by
  simp only [mentions, List.any_eq_true, Text.contains_iff, Names]

theorem mentions_append (label : String) (forms others : List String) :
    mentions label (forms ++ others) = (mentions label forms || mentions label others) :=
  List.any_append

theorem mentions_congr (same : Names forms label ↔ Names others label) :
    mentions label forms = mentions label others := by
  apply Bool.eq_iff_iff.mpr
  rw [mentions_iff, mentions_iff]
  exact same

theorem mentions_personForms (label : String) : mentions label personForms = mentions label ordinals :=
  mentions_congr names_personForms

theorem mentions_personLabels (label : String) : mentions label personLabels = mentions label ordinals :=
  mentions_congr names_personLabels

theorem mentions_numberForms (label : String) :
    mentions label numberForms = (mentions label ["Singular"] || mentions label markedNumbers) :=
  mentions_append label ["Singular"] markedNumbers

theorem mentions_singular : mentions label ["Singular"] = true ↔ "Singular".toList <:+: label.toList := by
  simp [mentions_iff, Names]

theorem lastForm?_isSome (forms : List String) (label : String) :
    (lastForm? forms [label]).isSome = mentions label forms := by
  apply Bool.eq_iff_iff.mpr
  rw [mentions_iff, Option.isSome_iff_ne_none, ne_eq, lastForm?_eq_none]
  simp

end Labels

namespace Features

open Labels

variable {label : String} {features : Features}

def leading? (features : Features) : Option Axis :=
  [Axis.person, .tense, .number].find? fun axis => (features.get axis).isSome

def leading (features : Features) : Axis := features.leading?.getD .other

theorem leading_insert (axis : Axis) (value : String) : (empty.insert axis value).leading = axis := by
  cases axis <;> rfl

theorem leading?_eq_none (other : features.other = none) : features.leading? = none ↔ features.isEmpty = true := by
  rw [isEmpty_iff, leading?, List.find?_eq_none]
  constructor
  · intro missing axis
    cases axis with
    | other => exact other
    | person => simpa using missing .person (by simp)
    | tense => simpa using missing .tense (by simp)
    | number => simpa using missing .number (by simp)
  · intro missing axis _
    simp [missing axis]

theorem leading?_ofCategories (label : String) :
    (ofCategories [label]).leading? =
      if mentions label ordinals then some .person
      else if mentions label tenseForms then some .tense
      else if mentions label markedNumbers then some .number
      else none := by
  simp only [leading?, List.find?_cons, List.find?_nil, get, ofCategories, lastForm?_isSome, mentions_personForms]
  cases mentions label ordinals
  · cases mentions label tenseForms
    · cases mentions label markedNumbers <;> rfl
    · rfl
  · rfl

theorem isEmpty_ofCategories :
    (ofCategories [label]).isEmpty = true ↔
      ¬ Names ["1st", "2nd", "3rd", "Past", "Present", "Future", "Plural"] label := by
  have forms : mentions label (ordinals ++ tenseForms ++ markedNumbers) = true ↔
      Names ["1st", "2nd", "3rd", "Past", "Present", "Future", "Plural"] label := mentions_iff
  rw [← leading?_eq_none rfl, leading?_ofCategories, ← forms, mentions_append, mentions_append]
  cases mentions label ordinals
  · cases mentions label tenseForms
    · cases mentions label markedNumbers <;> simp
    · simp
  · simp

end Features

namespace Axis

open Labels

-- Both classifiers ask for the axes in one order, and the first asks for one form more.
theorem ofLabel_eq (label : String) :
    ofLabel label =
      (Features.ofCategories [label]).leading?.getD (if mentions label ["Singular"] then .number else .other) := by
  rw [Features.leading?_ofCategories, ofLabel, mentions_personLabels, mentions_numberForms]
  cases mentions label ordinals
  · cases mentions label tenseForms
    · cases mentions label markedNumbers
      · cases mentions label ["Singular"] <;> rfl
      · cases mentions label ["Singular"] <;> rfl
    · rfl
  · rfl

variable {label : String} {axis : Axis}

theorem ofLabel_leading (found : (Features.ofCategories [label]).leading? = some axis) : ofLabel label = axis := by
  rw [ofLabel_eq, found]
  rfl

theorem ofLabel_empty (empty : (Features.ofCategories [label]).isEmpty = true) :
    ofLabel label = if "Singular".toList <:+: label.toList then .number else .other := by
  rw [ofLabel_eq, (Features.leading?_eq_none rfl).mpr empty]
  simp only [Option.getD_none, mentions_singular]

theorem ofLabel_eq_leading : ofLabel label = (Features.ofCategories [label]).leading ↔ ¬ SingularOnly label := by
  unfold SingularOnly Features.leading
  rw [← Features.isEmpty_ofCategories]
  cases found : (Features.ofCategories [label]).leading? with
  | some axis =>
    have carried : ¬ (Features.ofCategories [label]).isEmpty = true := by
      rw [← Features.leading?_eq_none rfl, found]
      simp
    simp [ofLabel_leading found, carried]
  | none =>
    have empty := (Features.leading?_eq_none rfl).mp found
    rw [ofLabel_empty empty]
    by_cases singular : "Singular".toList <:+: label.toList
    · rw [if_pos singular]
      exact ⟨nofun, fun unmarked => absurd ⟨singular, empty⟩ unmarked⟩
    · rw [if_neg singular]
      exact ⟨fun _ marked => singular marked.1, fun _ => rfl⟩

theorem ofLabel_exact (label : String) :
    (∀ axis, (Features.ofCategories [label]).leading? = some axis → ofLabel label = axis) ∧
      ((Features.ofCategories [label]).leading? = none ↔ (Features.ofCategories [label]).isEmpty = true) ∧
      ((Features.ofCategories [label]).isEmpty = true →
        ofLabel label = if "Singular".toList <:+: label.toList then .number else .other) ∧
      ∀ symbol word,
        ((Entry.mk symbol label word).category .empty).features.leading = (Features.ofCategories [label]).leading ↔
          ¬ SingularOnly label := by
  refine ⟨fun _ => ofLabel_leading, Features.leading?_eq_none rfl, ofLabel_empty, ?_⟩
  intro symbol word
  rw [← ofLabel_eq_leading, Entry.category, Features.overlay_empty, Features.leading_insert]

theorem ofLabel_singular :
    (Features.ofCategories ["Singular"]).isEmpty = true ∧ ofLabel "Singular" = .number ∧
      ((Entry.mk "N" "Singular" "ev").category .empty).features.leading ≠ (Features.ofCategories ["Singular"]).leading ∧
      (Features.ofCategories ["PastSingular2nd"]).leading? = some .person ∧ ofLabel "PastSingular2nd" = .person ∧
      (Features.ofCategories ["Locative"]).isEmpty = true ∧ ofLabel "Locative" = .other := by
  obtain ⟨-, -, bare, apart⟩ := ofLabel_exact "Singular"
  obtain ⟨marked, -, -, -⟩ := ofLabel_exact "PastSingular2nd"
  obtain ⟨-, -, unmarked, -⟩ := ofLabel_exact "Locative"
  have empty : (Features.ofCategories ["Singular"]).isEmpty = true := by decide
  have mixed : (Features.ofCategories ["PastSingular2nd"]).leading? = some .person := by decide
  have none : (Features.ofCategories ["Locative"]).isEmpty = true := by decide
  refine ⟨empty, ?_, ?_, mixed, marked _ mixed, none, ?_⟩
  · rw [bare empty, if_pos (List.infix_refl _)]
  · intro same
    exact (apart "N" "ev").mp same ⟨List.infix_refl _, Features.isEmpty_ofCategories.mp empty⟩
  · rw [unmarked none, if_neg (by decide)]

end Axis
end Concord
