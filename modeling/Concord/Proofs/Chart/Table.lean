import Concord.Chart.Table
import Concord.Proofs.Chart.Cells

namespace Concord.Chart.Filed

variable {chart : Chart} {first last : Nat}

theorem symbolsAt_eq (filed : chart.Filed) (inside : first ≤ last ∧ last < chart.size) :
    chart.symbolsAt first last =
      .ok ((chart.covering first last).map (·.2.category.symbol)).eraseDups := by
  unfold symbolsAt
  rw [filed.nodesAt_eq inside]
  simp [Function.comp_def]

theorem fieldAt_succeeds (filed : chart.Filed) (inside : last < chart.size) :
    ∃ field, chart.fieldAt first last = .ok field := by
  unfold fieldAt
  by_cases backward : last < first
  · exact ⟨"", by rw [if_pos backward]⟩
  · rw [if_neg backward, filed.symbolsAt_eq ⟨Nat.le_of_not_lt backward, inside⟩]
    exact ⟨_, rfl⟩

theorem row_succeeds (filed : chart.Filed) (first : Nat) :
    ∃ fields, (List.range chart.size).mapM (chart.fieldAt first) = .ok fields := by
  apply mapM_succeeds.mpr
  intro last member
  exact filed.fieldAt_succeeds (List.mem_range.mp member)

theorem table_succeeds (filed : chart.Filed) : ∃ table, chart.table = .ok table := by
  obtain ⟨rows, read⟩ := mapM_succeeds.mpr fun first (_ : first ∈ List.range chart.size) =>
    filed.row_succeeds first
  unfold table
  rw [read]
  exact ⟨_, rfl⟩

end Concord.Chart.Filed
