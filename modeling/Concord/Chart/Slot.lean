namespace Concord.Chart

def cellCount (size : Nat) : Nat := size * (size + 1) / 2

-- The rows before row `first` hold `first * size` cells less those left of the diagonal.
def slot (size first last : Nat) : Nat :=
  first * size - first * (first - 1) / 2 + (last - first)

theorem two_mul_half (n : Nat) : 2 * (n * (n - 1) / 2) = n * (n - 1) := by
  induction n with
  | zero => rfl
  | succ n step =>
    cases n with
    | zero => rfl
    | succ m =>
      have grown : (m + 1 + 1) * (m + 1) = (m + 1) * m + 2 * (m + 1) := by grind
      simp only [Nat.add_sub_cancel] at step ⊢
      omega

theorem mul_pred_add_self (n : Nat) : n * (n - 1) + n = n * n := by
  cases n with
  | zero => rfl
  | succ m => simp only [Nat.add_sub_cancel]; grind

theorem slot_lt {size first last : Nat} (inside : first ≤ last ∧ last < size) :
    slot size first last < cellCount size := by
  obtain ⟨rest, rfl⟩ : ∃ rest, size = first + rest := ⟨size - first, by omega⟩
  have before := two_mul_half first
  have all := two_mul_half (first + rest + 1)
  have short := mul_pred_add_self first
  have room : rest * 1 ≤ rest * rest := Nat.mul_le_mul_left _ (by omega)
  have rows : first * (first + rest) = first * first + first * rest := by grind
  have square : (first + rest + 1) * (first + rest)
      = first * first + 2 * (first * rest) + rest * rest + first + rest := by grind
  have turned : (first + rest) * (first + rest + 1) = (first + rest + 1) * (first + rest) := by grind
  unfold slot cellCount
  simp only [Nat.add_sub_cancel] at all
  rw [turned, rows]
  rw [square] at all ⊢
  omega

end Concord.Chart
