import Mathlib.Data.List.Perm.Basic
import Concord.Feature.Category

namespace Concord.FirstWins

variable {α β : Type} {key : α → Category} {cell more items : List α} {item : α}

def Holds (key : α → Category) (cell : List α) (category : Category) : Prop :=
  ∃ item ∈ cell, key item = category

instance (category : Category) : Decidable (Holds key cell category) :=
  inferInstanceAs (Decidable (∃ item ∈ cell, key item = category))

def keep (key : α → Category) (cell : List α) (item : α) : List α :=
  if Holds key cell (key item) then cell else cell ++ [item]

def keepAll (key : α → Category) (cell items : List α) : List α := items.foldl (keep key) cell

-- The items are visited in order, those that are found on the way included.
def closeFrom (key : α → Category) (parents : α → List α) : Nat → Nat → List α → List α
  | 0, _, cell => cell
  | fuel + 1, position, cell =>
    match cell[position]? with
    | none => cell
    | some item => closeFrom key parents fuel (position + 1) (keepAll key cell (parents item))

theorem Holds.subset {category : Category} (holds : Holds key cell category) (within : cell ⊆ more) :
    Holds key more category := by
  obtain ⟨item, member, same⟩ := holds
  exact ⟨item, within member, same⟩

theorem Holds.mono {category : Category} (holds : Holds key cell category) (grown : cell <+: more) :
    Holds key more category :=
  holds.subset grown.subset

theorem Holds.map {key' : β → Category} {f : α → β} {category : Category}
    (holds : Holds key cell category) (same : ∀ item, key' (f item) = key item) :
    Holds key' (cell.map f) category := by
  obtain ⟨item, member, rfl⟩ := holds
  exact ⟨f item, List.mem_map_of_mem member, same item⟩

theorem keep_prefix : cell <+: keep key cell item := by
  unfold keep
  split
  · exact List.prefix_rfl
  · exact List.prefix_append _ _

theorem keep_holds : Holds key (keep key cell item) (key item) := by
  unfold keep
  split
  · assumption
  · exact ⟨item, by simp, rfl⟩

theorem keep_origin {other : α} (member : other ∈ keep key cell item) : other ∈ cell ∨ other = item := by
  unfold keep at member
  split at member
  · exact Or.inl member
  · simpa using member

theorem keep_nodup (distinct : (cell.map key).Nodup) : ((keep key cell item).map key).Nodup := by
  unfold keep
  split
  · exact distinct
  · rename_i fresh
    rw [List.map_append, List.nodup_append]
    refine ⟨distinct, by simp, ?_⟩
    intro old present new single equal
    obtain ⟨other, member, rfl⟩ := List.mem_map.mp present
    have last : new = key item := by simpa using single
    exact fresh ⟨other, member, equal.trans last⟩

theorem keep_map {key' : β → Category} {f : α → β} (same : ∀ item, key' (f item) = key item) :
    (keep key cell item).map f = keep key' (cell.map f) (f item) := by
  unfold keep
  by_cases old : Holds key cell (key item)
  · rw [if_pos old, if_pos (by rw [same]; exact old.map same)]
  · rw [if_neg old, if_neg, List.map_append, List.map_singleton]
    rintro ⟨image, member, equal⟩
    obtain ⟨other, present, rfl⟩ := List.mem_map.mp member
    exact old ⟨other, present, by rw [← same, equal, same]⟩

theorem keepAll_prefix : cell <+: keepAll key cell items := by
  induction items generalizing cell with
  | nil => exact List.prefix_rfl
  | cons item rest step => exact keep_prefix.trans step

theorem keepAll_append (key : α → Category) (cell items : List α) :
    ∃ more, keepAll key cell items = cell ++ more ∧ List.Sublist more items := by
  induction items generalizing cell with
  | nil => exact ⟨[], by simp [keepAll], .slnil⟩
  | cons item rest step =>
    obtain ⟨more, joined, order⟩ := step (keep key cell item)
    change ∃ more, keepAll key (keep key cell item) rest = cell ++ more ∧ _
    unfold keep at joined ⊢
    split at joined
    · rename_i old
      rw [if_pos old]
      exact ⟨more, joined, .cons _ order⟩
    · rename_i fresh
      rw [if_neg fresh]
      exact ⟨item :: more, by rw [joined, List.append_assoc]; rfl, .cons_cons _ order⟩

theorem keepAll_holds (member : item ∈ items) : Holds key (keepAll key cell items) (key item) := by
  induction items generalizing cell with
  | nil => cases member
  | cons head rest step =>
    rcases List.mem_cons.mp member with rfl | later
    · exact keep_holds.mono keepAll_prefix
    · exact step later

theorem keepAll_origin {other : α} (member : other ∈ keepAll key cell items) :
    other ∈ cell ∨ other ∈ items := by
  induction items generalizing cell with
  | nil => exact Or.inl member
  | cons head rest step =>
    rcases step member with early | late
    · rcases keep_origin early with old | rfl
      · exact Or.inl old
      · exact Or.inr (by simp)
    · exact Or.inr (by simp [late])

theorem keepAll_first (member : item ∈ keepAll key cell items) :
    item ∈ cell ∨ ¬ Holds key cell (key item) ∧
      ∃ before after, items = before ++ item :: after ∧ ∀ other ∈ before, key other ≠ key item := by
  induction items generalizing cell with
  | nil => exact Or.inl member
  | cons head rest step =>
    rcases step member with early | ⟨fresh, before, after, rfl, first⟩
    · by_cases old : item ∈ cell
      · exact Or.inl old
      · have added : item = head := (keep_origin early).resolve_left old
        subst added
        refine Or.inr ⟨?_, [], rest, rfl, by simp⟩
        intro held
        unfold keep at early
        rw [if_pos held] at early
        exact old early
    · refine Or.inr ⟨fun held => fresh (held.mono keep_prefix), head :: before, after, rfl, ?_⟩
      intro other present same
      rcases List.mem_cons.mp present with rfl | later
      · exact fresh (same ▸ keep_holds)
      · exact first other later same

theorem keepAll_least {order : α → α → Prop} (ordered : items.Pairwise order)
    (member : item ∈ keepAll key [] items) :
    item ∈ items ∧ ∀ other ∈ items, key other = key item → other = item ∨ order item other := by
  rcases keepAll_first member with old | ⟨_, before, after, rfl, first⟩
  · cases old
  · refine ⟨by simp, ?_⟩
    intro other present same
    have later := (List.pairwise_cons.mp (List.pairwise_append.mp ordered).2.1).1
    rcases List.mem_append.mp present with early | late
    · exact absurd same (first other early)
    · rcases List.mem_cons.mp late with now | after
      · exact Or.inl now
      · exact Or.inr (later other after)

theorem keepAll_nodup (distinct : (cell.map key).Nodup) : ((keepAll key cell items).map key).Nodup := by
  induction items generalizing cell with
  | nil => exact distinct
  | cons item rest step => exact step (keep_nodup distinct)

theorem keepAll_map {key' : β → Category} {f : α → β} (same : ∀ item, key' (f item) = key item) :
    (keepAll key cell items).map f = keepAll key' (cell.map f) (items.map f) := by
  induction items generalizing cell with
  | nil => rfl
  | cons item rest step =>
    change (keepAll key (keep key cell item) rest).map f = _
    rw [step, keep_map same]
    rfl

section Closing

variable {parents : α → List α} {fuel position : Nat}

theorem closeFrom_prefix : cell <+: closeFrom key parents fuel position cell := by
  induction fuel generalizing position cell with
  | zero => exact List.prefix_rfl
  | succ fuel step =>
    unfold closeFrom
    split
    · exact List.prefix_rfl
    · exact keepAll_prefix.trans step

theorem closeFrom_all {holds : α → Prop} (start : ∀ item ∈ cell, holds item)
    (pass : ∀ item, holds item → ∀ parent ∈ parents item, holds parent) :
    ∀ item ∈ closeFrom key parents fuel position cell, holds item := by
  induction fuel generalizing position cell with
  | zero => exact start
  | succ fuel step =>
    unfold closeFrom
    cases found : cell[position]? with
    | none => exact start
    | some item =>
      apply step
      intro other member
      rcases keepAll_origin member with old | new
      · exact start other old
      · exact pass item (start item (List.mem_of_getElem? found)) other new

theorem closeFrom_map {key' : β → Category} {parents' : β → List β} {f : α → β}
    (same : ∀ item, key' (f item) = key item)
    (above : ∀ item, parents' (f item) = (parents item).map f) :
    (closeFrom key parents fuel position cell).map f =
      closeFrom key' parents' fuel position (cell.map f) := by
  induction fuel generalizing position cell with
  | zero => rfl
  | succ fuel step =>
    unfold closeFrom
    rw [List.getElem?_map]
    cases found : cell[position]? with
    | none => rfl
    | some item =>
      simp only [Option.map_some]
      rw [step, keepAll_map same, above]

def VisitedTo (key : α → Category) (parents : α → List α) (position : Nat) (cell : List α) : Prop :=
  ∀ index < position, ∀ item, cell[index]? = some item →
    ∀ parent ∈ parents item, Holds key cell (key parent)

def Closed (key : α → Category) (parents : α → List α) (cell : List α) : Prop :=
  ∀ item ∈ cell, ∀ parent ∈ parents item, Holds key cell (key parent)

theorem VisitedTo.closed (visited : VisitedTo key parents position cell)
    (past : cell.length ≤ position) : Closed key parents cell := by
  intro item member
  obtain ⟨index, found⟩ := List.mem_iff_getElem?.mp member
  have here : index < cell.length := (List.getElem?_eq_some_iff.mp found).1
  exact visited index (by omega) item found

theorem VisitedTo.visit (visited : VisitedTo key parents position cell)
    (found : cell[position]? = some item) :
    VisitedTo key parents (position + 1) (keepAll key cell (parents item)) := by
  intro index early other there parent above
  have here : position < cell.length := (List.getElem?_eq_some_iff.mp found).1
  have grown : cell <+: keepAll key cell (parents item) := keepAll_prefix
  have same : cell[index]? = some other := by
    obtain ⟨rest, joined⟩ := grown
    rwa [← joined, List.getElem?_append_left (by omega)] at there
  by_cases now : index = position
  · subst now
    have equal : other = item := Option.some.inj (same.symm.trans found)
    subst equal
    exact keepAll_holds above
  · exact (visited index (by omega) other same parent above).mono grown

theorem length_le_of_bound {bound : List Category} (distinct : (cell.map key).Nodup)
    (bounded : ∀ item ∈ cell, key item ∈ bound) : cell.length ≤ bound.length := by
  have sub : cell.map key ⊆ bound := by
    intro category member
    obtain ⟨item, present, rfl⟩ := List.mem_map.mp member
    exact bounded item present
  simpa using (List.subperm_of_subset distinct sub).length_le

-- No category comes twice and all of them are bound, so the visits end before the fuel does.
theorem closeFrom_closed {bound : List Category}
    (within : ∀ item, key item ∈ bound → ∀ parent ∈ parents item, key parent ∈ bound)
    (distinct : (cell.map key).Nodup) (bounded : ∀ item ∈ cell, key item ∈ bound)
    (enough : bound.length ≤ position + fuel) (visited : VisitedTo key parents position cell) :
    Closed key parents (closeFrom key parents fuel position cell) := by
  induction fuel generalizing position cell with
  | zero =>
    have short := length_le_of_bound distinct bounded
    exact visited.closed (by omega)
  | succ fuel step =>
    unfold closeFrom
    cases found : cell[position]? with
    | none => exact visited.closed (List.getElem?_eq_none_iff.mp found)
    | some item =>
      refine step (keepAll_nodup distinct) ?_ (by omega) (visited.visit found)
      intro other member
      rcases keepAll_origin member with old | new
      · exact bounded other old
      · exact within item (bounded item (List.mem_of_getElem? found)) other new

end Closing
end Concord.FirstWins
