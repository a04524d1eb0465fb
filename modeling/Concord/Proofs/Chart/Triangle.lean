import Concord.Proofs.Chart.Additions
import Concord.Proofs.Chart.Safety
import Mathlib.Data.Set.Function
import Mathlib.Order.Interval.Set.Defs

namespace Concord
namespace Chart

variable {chart : Chart} {node : Node} {size first last first' last' : Nat}

theorem slot_lt_iff (inside : first ≤ last ∧ last < size) (inside' : first' ≤ last' ∧ last' < size) :
    slot size first last < slot size first' last' ↔ first < first' ∨ first = first' ∧ last < last' := by
  constructor
  · intro before
    apply Classical.byContradiction
    intro unordered
    have later : first' < first ∨ first' = first ∧ last' < last ∨ first = first' ∧ last = last' := by omega
    rcases later with below | behind | ⟨rfl, rfl⟩
    · have after := slot_lt_slot inside' inside (.inl below)
      omega
    · have after := slot_lt_slot inside' inside (.inr behind)
      omega
    · omega
  · exact slot_lt_slot inside inside'

theorem slot_bijOn (size : Nat) :
    Set.BijOn (fun span : Nat × Nat => slot size span.1 span.2) {span | span.1 ≤ span.2 ∧ span.2 < size}
      (Set.Iio (cellCount size)) := by
  refine ⟨?_, ?_, ?_⟩
  · intro span inside
    exact slot_lt inside
  · intro span inside other inside' same
    obtain ⟨starts, ends⟩ := slot_injective inside inside' same
    exact Prod.ext starts ends
  · intro place within
    obtain ⟨first, last, inside, found⟩ := slot_surjective within
    exact ⟨(first, last), inside, found⟩

-- The slot of a span, step by step: the product is halved without a remainder, nothing is taken from less, and
-- what comes out is what the integers give, where one less than zero is not zero.
structure Computes (size first last : Nat) : Prop where
  halved : 2 * (first * (first - 1) / 2) = first * (first - 1)
  rows : first * (first - 1) / 2 ≤ first * size
  along : first ≤ last
  checked : Checked.slot size first last = .ok (slot size first last)
  integer : (slot size first last : Int) = first * size - first * (first - 1) / 2 + (last - first)

theorem half_integer (n : Nat) : (n : Int) * (n - 1) / 2 = (n * (n - 1) / 2 : Nat) := by
  cases n with
  | zero => rfl
  | succ m => simp

theorem computes (inside : first ≤ last ∧ last < size) : Computes size first last where
  halved := two_mul_half first
  rows := half_le inside
  along := inside.1
  checked := Checked.slot_eq inside
  integer := by
    have enough := half_le inside
    rw [half_integer]
    unfold slot
    rw [Int.natCast_add, Int.ofNat_sub enough, Int.ofNat_sub inside.1, Int.natCast_mul]

-- The cells of a chart, one for each span and no others. A span outside is refused wherever it is looked for.
structure Triangular (chart : Chart) : Prop where
  halved : 2 * chart.cells.size = chart.size * (chart.size + 1)
  listed : (spansByRow chart.size).mapM (fun span => chart.cell span.1 span.2) = .ok chart.cells.toList
  checked : ∀ first last, Checked.slot chart.size first last = .error (.chart (.outside first last chart.size)) ↔
    ¬ (first ≤ last ∧ last < chart.size)
  read : ∀ first last, first ≤ last ∧ last < chart.size →
    ∃ places, chart.cells[slot chart.size first last]? = some places ∧ chart.cell first last = .ok places
  refused : ∀ first last, chart.cell first last = .error (.outside first last chart.size) ↔
    ¬ (first ≤ last ∧ last < chart.size)
  added : chart.Filed → ∀ node,
    chart.add node = .error (.outside node.first node.last chart.size) ↔ ¬ Inside chart.size node

theorem Filed.add_outside (filed : chart.Filed) :
    chart.add node = .error (.outside node.first node.last chart.size) ↔ ¬ Inside chart.size node := by
  by_cases inside : Inside chart.size node
  · rw [filed.add_eq inside]
    simp [inside]
  · have fresh : node.key ∉ chart.memo := fun known => inside (filed.inside_of_known known)
    have outside : ¬ (node.first ≤ node.last ∧ node.last < chart.size) := inside
    unfold add
    rw [enter_run, if_neg fresh, if_neg outside]
    simp [inside]

theorem triangular (chart : Chart) : chart.Triangular where
  halved := by rw [chart.cells_size, ← size, two_mul_cellCount]
  listed := cells_byRow chart
  checked := by
    intro first last
    by_cases inside : first ≤ last ∧ last < chart.size
    · simp [Checked.slot_eq inside, inside]
    · simp [Checked.slot, inside]
  read := fun _ _ => cell_slot
  refused := by
    intro first last
    unfold cell
    by_cases inside : first ≤ last ∧ last < chart.size
    · simp [inside]
    · simp [inside]
  added := fun filed _ => filed.add_outside

theorem slot_exact (size : Nat) :
    Set.BijOn (fun span : Nat × Nat => slot size span.1 span.2) {span | span.1 ≤ span.2 ∧ span.2 < size}
        (Set.Iio (size * (size + 1) / 2)) ∧
      (spansByRow size).map (fun span => slot size span.1 span.2) = List.range (size * (size + 1) / 2) ∧
      (∀ first last first' last', first ≤ last ∧ last < size → first' ≤ last' ∧ last' < size →
        (slot size first last < slot size first' last' ↔ first < first' ∨ first = first' ∧ last < last')) ∧
      (∀ first last, first ≤ last ∧ last < size → Computes size first last) ∧
      ∀ chart : Chart, chart.Triangular := by
  refine ⟨slot_bijOn size, spansByRow_slots size, ?_, ?_, triangular⟩
  · intro first last first' last' inside inside'
    exact slot_lt_iff inside inside'
  · intro first last inside
    exact computes inside

def fourWords : Chart := .empty ["bu", "ev", "dün", "yandı"]

-- The end of the second row and the start of the third one, a span that runs backward and a fifth word.
theorem fourWords_slots :
    (1 ≤ 3 ∧ 3 < 4) ∧ (2 ≤ 2 ∧ 2 < 4) ∧ slot 4 1 3 = 6 ∧ slot 4 2 2 = 7 ∧ slot 4 1 3 < slot 4 2 2 ∧ Computes 4 1 3 ∧
      fourWords.cells.size = 10 ∧ fourWords.cell 3 1 = .error (.outside 3 1 4) ∧
      fourWords.add (.token ⟨"N", .empty⟩ "ev" 4) = .error (.outside 4 4 4) := by
  obtain ⟨-, -, ordered, computed, charts⟩ := slot_exact 4
  have triangle := charts fourWords
  have halved := triangle.halved
  refine ⟨by decide, by decide, rfl, rfl, (ordered 1 3 2 2 (by decide) (by decide)).mpr (.inl (by decide)),
    computed 1 3 (by decide), ?_, (triangle.refused 3 1).mpr (by decide), (triangle.added (.empty _) _).mpr (by decide)⟩
  have size : fourWords.size = 4 := rfl
  rw [size] at halved
  omega

end Chart
end Concord
