import Concord.Proofs.Chart.Columns
import Concord.Proofs.Chart.Extraction
import Concord.Proofs.Chart.Percolation

namespace Concord

namespace Checked

variable {α : Type}

def Passes (checked : Except Fault α) (plain : Except ChartError α) : Prop :=
  ∃ value, plain = .ok value ∧ checked = .ok value

theorem passes {checked : Except Fault α} {plain : Except ChartError α}
    (same : checked = plain.mapError .chart) (runs : ∃ value, plain = .ok value) : Passes checked plain := by
  obtain ⟨value, done⟩ := runs
  exact ⟨value, done, by rw [same, done]; rfl⟩

structure Legible (chart : Chart) : Prop where
  cells : ∀ first last, first ≤ last → last < chart.size → ∃ places, chart.cell first last = .ok places ∧
    cell chart first last = .ok places ∧ ∀ index ∈ places.toList, index < chart.nodes.size
  roots : ∀ symbol, ∃ places, chart.roots symbol = .ok places ∧ roots chart symbol = .ok places ∧
    ∀ index ∈ places, index < chart.nodes.size
  trees : ∀ symbol, Passes (trees chart symbol) (chart.trees symbol)
  tree : ∀ index, index < chart.nodes.size → Passes (tree chart index) (chart.tree index)
  render : Passes (render chart) chart.render
  table : Passes (table chart) chart.table

end Checked

namespace Chart

variable {chart : Chart} {first last : Nat}

theorem Filed.render_succeeds (filed : chart.Filed) : ∃ text, chart.render = .ok text := by
  have each : ∀ span ∈ spansByRow chart.size, ∃ nodes, chart.nodesAt span.1 span.2 = .ok nodes :=
    fun span member => ⟨_, filed.nodesAt_eq (spansByRow_inside member)⟩
  obtain ⟨rows, read⟩ := mapM_succeeds.mpr each
  unfold render
  rw [read]
  exact ⟨_, rfl⟩

theorem covering_within {index : Nat} (member : index ∈ (chart.covering first last).map Prod.fst) :
    index < chart.nodes.size := by
  obtain ⟨⟨place, node⟩, covered, rfl⟩ := List.mem_map.mp member
  exact (Array.getElem?_eq_some_iff.mp (mem_covering.mp covered).1).1

theorem Filed.legible (filed : chart.Filed) (rooted : chart.Rooted) : Checked.Legible chart where
  cells := by
    intro first last forward inside
    have read := filed.cell_eq ⟨forward, inside⟩
    exact ⟨_, read, by rw [Checked.cell_eq, read]; rfl, fun index => covering_within⟩
  roots := by
    intro symbol
    have read := filed.roots_eq symbol
    refine ⟨_, read, by rw [Checked.roots_eq, read]; rfl, fun index member => ?_⟩
    obtain ⟨entry, top, rfl⟩ := List.mem_map.mp member
    exact covering_within (List.mem_map_of_mem (List.mem_filter.mp top).1)
  trees := fun symbol => Checked.passes (Checked.trees_eq chart symbol) ⟨_, filed.trees_eq rooted symbol⟩
  tree := fun index bound =>
    Checked.passes rfl ⟨_, rooted.tree_eq (Array.getElem?_eq_getElem bound)⟩
  render := Checked.passes (Checked.render_eq chart) filed.render_succeeds
  table := Checked.passes (Checked.table_eq chart) filed.table_succeeds

end Chart

namespace Grammar

end Grammar
end Concord
