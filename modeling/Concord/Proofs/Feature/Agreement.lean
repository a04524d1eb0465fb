import Concord.Proofs.Feature.Overlay
import Concord.Proofs.Grammar.Rules

namespace Concord

namespace Features

variable {left right : Features} {axes others : List Axis} {axis : Axis}

-- By induction on the axes gone through: an axis that was passed has the value of `top`, if there is one.
theorem get_foldl_insert (base top : Features) (axes : List Axis) (asked : Axis) :
    ((axes.filterMap fun axis => (top.get axis).map fun value => (axis, value)).foldl
      (fun features pair => features.insert pair.1 pair.2) base).get asked =
        if asked ∈ axes then (top.get asked).or (base.get asked) else base.get asked := by
  induction axes generalizing base with
  | nil => rfl
  | cons axis rest step =>
    cases carried : top.get axis with
    | none =>
      simp only [List.filterMap_cons, carried, Option.map_none, step]
      by_cases same : asked = axis
      · subst same
        simp [carried]
      · simp [same]
    | some value =>
      simp only [List.filterMap_cons, carried, Option.map_some, List.foldl_cons, step, get_insert]
      by_cases same : asked = axis
      · subst same
        simp [carried]
      · simp [same]

theorem overlay_eq_foldl (base top : Features) :
    base.overlay top = top.toList.foldl (fun features pair => features.insert pair.1 pair.2) base := by
  apply ext_get
  intro asked
  have known : asked ∈ Axis.all := by cases asked <;> decide
  rw [get_overlay, toList, get_foldl_insert, if_pos known]

theorem agreeOn_comm (left right : Features) (axis : Axis) : left.agreeOn right axis = right.agreeOn left axis := by
  apply Bool.eq_iff_iff.mpr
  rw [agreeOn_iff, agreeOn_iff]
  exact not_congr ⟨Conflict.symm, Conflict.symm⟩

theorem agree_comm (left right : Features) (axes : List Axis) : left.agree right axes = right.agree left axes := by
  unfold agree
  congr 1
  funext axis
  exact agreeOn_comm left right axis

theorem agree_iff_each : left.agree right axes = true ↔ ∀ axis ∈ axes, left.agree right [axis] = true := by
  simp [agree]

theorem agree_append (left right : Features) (axes others : List Axis) :
    left.agree right (axes ++ others) = (left.agree right axes && left.agree right others) :=
  List.all_append

theorem agree_among (among : ∀ axis ∈ axes, axis ∈ others) (agreed : left.agree right others = true) :
    left.agree right axes = true := by
  apply agree_iff_each.mpr
  intro axis member
  exact agree_iff_each.mp agreed axis (among axis member)

theorem agree_congr (same : ∀ axis, axis ∈ axes ↔ axis ∈ others) : left.agree right axes = left.agree right others := by
  apply Bool.eq_iff_iff.mpr
  exact ⟨agree_among fun axis => (same axis).mpr, agree_among fun axis => (same axis).mp⟩

theorem agreeOn_iff_or :
    left.agreeOn right axis = true ↔ (right.get axis).or (left.get axis) = (left.get axis).or (right.get axis) := by
  unfold agreeOn
  cases left.get axis with
  | none => cases right.get axis <;> simp
  | some a =>
    cases right.get axis with
    | none => simp
    | some b => simp [eq_comm]

theorem agree_all : left.agree right Axis.all = true ↔ ∀ axis, left.agreeOn right axis = true := by
  unfold agree
  rw [List.all_eq_true]
  constructor
  · intro agreed axis
    apply agreed
    cases axis <;> decide
  · intro agreed axis _
    exact agreed axis

theorem agree_iff_overlay_comm : left.agree right Axis.all = true ↔ left.overlay right = right.overlay left := by
  rw [agree_all]
  constructor
  · intro agreed
    apply ext_get
    intro axis
    rw [get_overlay, get_overlay]
    exact agreeOn_iff_or.mp (agreed axis)
  · intro same axis
    apply agreeOn_iff_or.mpr
    rw [← get_overlay, ← get_overlay, same]

end Features

theorem Rule.project_swap (rule : Rule) (left right : Features) :
    { rule with head := 1 - rule.head }.project right left = rule.project left right := by
  unfold project
  rw [Features.agree_comm right left]
  cases rule.head with
  | zero => rfl
  | succ other => simp

namespace Features

structure Stacks (low middle high : Features) : Prop where
  assoc : (low.overlay middle).overlay high = low.overlay (middle.overlay high)
  emptyBelow : empty.overlay high = high
  emptyAbove : low.overlay empty = low
  self : low.overlay low = low
  value : ∀ axis, (low.overlay high).get axis = (high.get axis).or (low.get axis)
  loop : low.overlay high = high.toList.foldl (fun features pair => features.insert pair.1 pair.2) low

structure Consents (left right : Features) (axes : List Axis) : Prop where
  symm : left.agree right axes = right.agree left axes
  each : left.agree right axes = true ↔ ∀ axis ∈ axes, left.agree right [axis] = true
  same : ∀ others, (∀ axis, axis ∈ axes ↔ axis ∈ others) → left.agree right axes = left.agree right others
  longer : ∀ more, left.agree right (axes ++ more) = (left.agree right axes && left.agree right more)

theorem overlay_stacks (low middle high : Features) : Stacks low middle high where
  assoc := overlay_assoc low middle high
  emptyBelow := empty_overlay high
  emptyAbove := overlay_empty low
  self := overlay_self low
  value := get_overlay low high
  loop := overlay_eq_foldl low high

theorem agree_consents (left right : Features) (axes : List Axis) : Consents left right axes where
  symm := agree_comm left right axes
  each := agree_iff_each
  same := fun _ => agree_congr
  longer := agree_append left right axes

theorem overlay_agree_exact :
    (∀ low middle high : Features, Stacks low middle high) ∧
      (∀ (left right : Features) (axes : List Axis), Consents left right axes) ∧
      (∀ left right : Features, left.agree right [.person, .tense, .number, .other] = true ↔
        left.overlay right = right.overlay left) ∧
      ∀ (rule : Rule) (left right : Features),
        rule.project left right = { rule with head := 1 - rule.head }.project right left := by
  refine ⟨overlay_stacks, agree_consents, ?_, ?_⟩
  · intro left right
    exact agree_iff_overlay_comm
  · intro rule left right
    exact (rule.project_swap left right).symm

def firstPast : Features := { person := some "1st", tense := some "Past" }

def pluralPast : Features := { tense := some "Past", number := some "Plural" }

def secondPerson : Features := { person := some "2nd" }

-- The bundle in the middle agrees with both others, which do not agree with each other.
theorem pluralPast_agrees :
    firstPast.overlay pluralPast = pluralPast.overlay firstPast ∧
      pluralPast.overlay secondPerson = secondPerson.overlay pluralPast ∧
      firstPast.overlay secondPerson ≠ secondPerson.overlay firstPast ∧
      (∀ axis, axis ∈ [Axis.tense, .person, .tense] ↔ axis ∈ [Axis.person, .tense]) ∧
      firstPast.agree secondPerson [.tense, .person, .tense] = firstPast.agree secondPerson [.person, .tense] ∧
      (Rule.mk "S" 0 (.binary "NP" "VP") [.tense] 1).project firstPast pluralPast = some pluralPast ∧
      (Rule.mk "S" 0 (.binary "NP" "VP") [.tense] 0).project pluralPast firstPast = some pluralPast := by
  obtain ⟨-, consents, commute, swapped⟩ := overlay_agree_exact
  have same : ∀ axis, axis ∈ [Axis.tense, .person, .tense] ↔ axis ∈ [Axis.person, .tense] := by
    intro axis
    cases axis <;> decide
  have passed : (Rule.mk "S" 0 (.binary "NP" "VP") [.tense] 1).project firstPast pluralPast = some pluralPast := rfl
  refine ⟨(commute _ _).mp rfl, (commute _ _).mp rfl, ?_, same,
    (consents firstPast secondPerson [.tense, .person, .tense]).same _ same, passed, (swapped _ _ _).symm.trans passed⟩
  intro equal
  exact absurd ((commute _ _).mpr equal) (by decide)

end Features
end Concord
