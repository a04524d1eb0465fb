import Concord.Proofs.Feature.Order

namespace Concord.Features

def ofAxes (value : Axis → Option String) : Features where
  person := value .person
  tense := value .tense
  number := value .number
  other := value .other

@[simp] theorem get_ofAxes (value : Axis → Option String) (axis : Axis) : (ofAxes value).get axis = value axis := by
  cases axis <;> rfl

@[simp] theorem get_empty (axis : Axis) : empty.get axis = none := by
  cases axis <;> rfl

@[simp] theorem get_insert (features : Features) (axis asked : Axis) (value : String) :
    (features.insert axis value).get asked = if asked = axis then some value else features.get asked := by
  cases axis <;> cases asked <;> rfl

@[simp] theorem get_overlay (base top : Features) (axis : Axis) :
    (base.overlay top).get axis = (top.get axis).or (base.get axis) := by
  cases axis <;> rfl

@[simp] theorem overlay_empty (base : Features) : base.overlay empty = base := by
  apply ext_get
  intro axis
  rw [get_overlay, get_empty, Option.none_or]

@[simp] theorem empty_overlay (top : Features) : empty.overlay top = top := by
  apply ext_get
  intro axis
  rw [get_overlay, get_empty, Option.or_none]

@[simp] theorem overlay_self (features : Features) : features.overlay features = features := by
  apply ext_get
  intro axis
  rw [get_overlay, Option.or_self]

theorem overlay_assoc (base middle top : Features) :
    (base.overlay middle).overlay top = base.overlay (middle.overlay top) := by
  apply ext_get
  intro axis
  simp only [get_overlay, Option.or_assoc]

theorem isEmpty_iff {features : Features} : features.isEmpty = true ↔ ∀ axis, features.get axis = none := by
  rw [isEmpty, List.isEmpty_iff, List.eq_nil_iff_forall_not_mem]
  simp only [Prod.forall, mem_toList, Option.eq_none_iff_forall_ne_some, ne_eq]

theorem get_orUnspecified (features : Features) (axis : Axis) :
    features.orUnspecified.get axis =
      if features.isEmpty = true ∧ axis = .other then some "other" else features.get axis := by
  unfold orUnspecified
  by_cases empty : features.isEmpty = true
  · have missing := isEmpty_iff.mp empty axis
    rw [if_pos empty, missing]
    cases axis <;> simp [empty, unspecified, get]
  · rw [if_neg empty, if_neg (fun both => empty both.1)]

end Concord.Features
