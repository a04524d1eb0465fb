import Std.Data.TreeSet.Lemmas
import Concord.Feature.Features

namespace Concord

section Pair

variable {α β : Type} [Ord α] [Ord β] [Std.LawfulEqOrd α] [Std.LawfulEqOrd β]

instance lawfulPair : Std.LawfulEqCmp (compareLex (compareOn (Prod.fst : α × β → α)) (compareOn Prod.snd)) where
  eq_of_compare same := by
    simp only [compareLex, compareOn, Ordering.then_eq_eq, Std.LawfulEqOrd.compare_eq_iff_eq] at same
    exact Prod.ext same.1 same.2

end Pair

instance : Std.TransOrd Axis := inferInstanceAs (Std.TransCmp (compareOn Axis.rank))

theorem Axis.rank_injective {a b : Axis} (same : a.rank = b.rank) : a = b := by
  cases a <;> cases b <;> simp [rank] at same ⊢

instance : Std.LawfulEqOrd Axis where
  eq_of_compare same := Axis.rank_injective (Std.LawfulEqOrd.eq_of_compare same)

namespace Features

variable {left right features : Features}

theorem ext_get (same : ∀ axis, left.get axis = right.get axis) : left = right := by
  have person := same .person
  have tense := same .tense
  have number := same .number
  have other := same .other
  cases left
  cases right
  simp only [get] at person tense number other
  rw [person, tense, number, other]

theorem mem_toList {axis : Axis} {value : String} :
    (axis, value) ∈ features.toList ↔ features.get axis = some value := by
  have known : axis ∈ Axis.all := by cases axis <;> simp [Axis.all]
  unfold toList
  rw [List.mem_filterMap]
  constructor
  · rintro ⟨listed, _, carried⟩
    obtain ⟨held, found, same⟩ := Option.map_eq_some_iff.mp carried
    cases same
    exact found
  · intro found
    exact ⟨axis, known, by rw [found]; rfl⟩

theorem toList_injective (same : left.toList = right.toList) : left = right := by
  apply ext_get
  intro axis
  apply Option.ext
  intro value
  rw [← mem_toList, ← mem_toList, same]

def listOrder : List (Axis × String) → List (Axis × String) → Ordering :=
  List.compareLex (compareLex (compareOn Prod.fst) (compareOn Prod.snd))

instance : Std.TransCmp listOrder := inferInstanceAs (Std.TransCmp (List.compareLex _))

instance : Std.LawfulEqCmp listOrder := inferInstanceAs (Std.LawfulEqCmp (List.compareLex _))

instance : Std.TransOrd Features where
  eq_swap {_ _} := (Std.OrientedCmp.eq_swap : listOrder _ _ = _)
  isLE_trans {_ _ _} before after := (Std.TransCmp.isLE_trans before after : (listOrder _ _).isLE)

instance : Std.LawfulEqOrd Features where
  eq_of_compare same := toList_injective (Std.LawfulEqCmp.eq_of_compare (same : listOrder _ _ = .eq))

end Features
end Concord
