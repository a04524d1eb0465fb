import Concord.Chart.Slot

namespace Concord.Chart

variable {size first last first' last' : Nat}

theorem two_mul_cellCount (size : Nat) : 2 * cellCount size = size * (size + 1) := by
  have whole := two_mul_half (size + 1)
  rw [Nat.add_sub_cancel, Nat.mul_comm (size + 1)] at whole
  exact whole

-- The cells left of the diagonal are among those of the rows above.
theorem half_le (inside : first ≤ last ∧ last < size) : first * (first - 1) / 2 ≤ first * size := by
  have product : first * (first - 1) ≤ first * size := Nat.mul_le_mul_left _ (by omega)
  omega

def row (size first : Nat) : Nat := first * size - first * (first - 1) / 2

theorem slot_eq_row : slot size first last = row size first + (last - first) := rfl

theorem row_succ (size : Nat) {first : Nat} (below : first < size) :
    row size (first + 1) = row size first + (size - first) := by
  have here := two_mul_half first
  have next := two_mul_half (first + 1)
  have square := mul_pred_add_self first
  have grown : (first + 1) * first = first * first + first := by grind
  have room : first * first ≤ first * size := Nat.mul_le_mul_left _ (by omega)
  have wide : (first + 1) * size = first * size + size := by grind
  unfold row
  simp only [Nat.add_sub_cancel] at next ⊢
  rw [wide]
  omega

theorem row_end_le {size : Nat} (earlier : first < first') (below : first' ≤ size) :
    row size first + (size - first) ≤ row size first' := by
  induction first' with
  | zero => omega
  | succ next step =>
    have grown := row_succ size (show next < size by omega)
    by_cases same : first = next
    · subst same; omega
    · have previous := step (by omega) (by omega)
      omega

theorem slot_lt_slot (inside : first ≤ last ∧ last < size) (inside' : first' ≤ last' ∧ last' < size)
    (earlier : first < first' ∨ first = first' ∧ last < last') :
    slot size first last < slot size first' last' := by
  rw [slot_eq_row, slot_eq_row]
  rcases earlier with above | ⟨rfl, left⟩
  · have ended : row size first + (size - first) ≤ row size first' := row_end_le above (by omega)
    omega
  · omega

theorem slot_injective (inside : first ≤ last ∧ last < size) (inside' : first' ≤ last' ∧ last' < size)
    (same : slot size first last = slot size first' last') : first = first' ∧ last = last' := by
  apply Classical.byContradiction
  intro apart
  have ordered : (first < first' ∨ first = first' ∧ last < last') ∨
      (first' < first ∨ first' = first ∧ last' < last) := by omega
  rcases ordered with earlier | later
  · have := slot_lt_slot inside inside' earlier; omega
  · have := slot_lt_slot inside' inside later; omega

theorem row_size (size : Nat) : row size size = cellCount size := by
  have all := two_mul_cellCount size
  have half := two_mul_half size
  have square := mul_pred_add_self size
  have grown : size * (size + 1) = size * size + size := by grind
  unfold row
  omega

-- By induction on the rows up to `stop`: a place is in the last of them or before it.
theorem slot_of_lt_row {size stop place : Nat} (below : stop ≤ size) (early : place < row size stop) :
    ∃ first last, (first ≤ last ∧ last < size) ∧ slot size first last = place := by
  induction stop with
  | zero =>
    have start : row size 0 = 0 := by simp [row]
    omega
  | succ first step =>
    have grown := row_succ size (show first < size by omega)
    by_cases before : place < row size first
    · exact step (by omega) before
    · refine ⟨first, first + (place - row size first), by omega, ?_⟩
      rw [slot_eq_row]
      omega

theorem slot_surjective {size place : Nat} (within : place < cellCount size) :
    ∃ first last, (first ≤ last ∧ last < size) ∧ slot size first last = place := by
  rw [← row_size] at within
  exact slot_of_lt_row (Nat.le_refl size) within

theorem row_slots (size first : Nat) :
    (List.range (size - first)).map (fun extra => slot size first (first + extra)) =
      List.range' (row size first) (size - first) := by
  rw [List.range'_eq_map_range]
  apply List.map_congr_left
  intro extra _
  rw [slot_eq_row, Nat.add_sub_cancel_left]

-- By induction on the rows up to `stop`: each begins where those before it end.
theorem rows_slots {size stop : Nat} (below : stop ≤ size) :
    (List.range stop).flatMap (fun first =>
      (List.range (size - first)).map fun extra => slot size first (first + extra)) = List.range (row size stop) := by
  induction stop with
  | zero => simp [row]
  | succ first step =>
    have grown := row_succ size (show first < size by omega)
    have before := step (by omega)
    rw [List.range_succ, List.flatMap_append, before, List.flatMap_singleton, row_slots, grown, List.range_add,
      List.range'_eq_map_range]

end Concord.Chart
