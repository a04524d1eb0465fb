import Concord.Proofs.Chart.Checked
import Concord.Proofs.Chart.Table

namespace Concord

open Text

theorem longest_from (start : Nat) (texts : List String) :
    texts.foldl (fun width text => max width text.length) start = max start (longest texts) := by
  unfold longest
  induction texts generalizing start with
  | nil => simp
  | cons text rest step =>
    rw [List.foldl_cons, List.foldl_cons, step, step (max 0 text.length)]
    omega

namespace Chart

def widened (widths : List Nat) (rows : List (List String)) : List Nat :=
  rows.foldl (fun widths row => List.zipWith max widths (row.map String.length)) widths

theorem length_widened {widths : List Nat} {rows : List (List String)}
    (even : ∀ row ∈ rows, row.length = widths.length) : (widened widths rows).length = widths.length := by
  induction rows generalizing widths with
  | nil => rfl
  | cons row rest step =>
    obtain ⟨here, others⟩ := List.forall_mem_cons.mp even
    have same : (List.zipWith max widths (row.map String.length)).length = widths.length := by simp [here]
    refine (step fun other member => ?_).trans same
    rw [same, others other member]

theorem length_columnWidths {header : List String} {rows : List (List String)}
    (even : ∀ row ∈ rows, row.length = header.length) : (columnWidths header rows).length = header.length := by
  refine (length_widened fun row member => ?_).trans (List.length_map ..)
  rw [even row member, List.length_map]

end Chart

namespace Checked

variable {chart : Chart} {words : List String} {rows : List (List String)}

def fieldAt (chart : Chart) (first last : Nat) : Except Fault String :=
  if last < first then .ok ""
  else do
    let symbols ← symbolsAt chart first last
    return if symbols.isEmpty then "-" else ",".intercalate symbols

def columnWidth (words : List String) (rows : List (List String)) (place : Nat) : Except Fault Nat := do
  let fields ← rows.mapM fun row => item row place
  return longest (fields ++ [← item words place])

def tableLine (margin : Nat) (widths : List Nat) (name : String) (fields : List String) :
    Except Fault String := do
  let texts ← fields.zipIdx.mapM fun (field, place) => do
    return " | " ++ padTo (← item widths place) field
  return padTo margin name ++ String.join texts ++ " |\n"

def table (chart : Chart) : Except Fault String := do
  let words := chart.words.toList
  let rows ← (List.range chart.size).mapM fun first =>
    (List.range chart.size).mapM fun last => fieldAt chart first last
  let margin := longest words
  let widths ← (List.range chart.size).mapM (columnWidth words rows)
  let header ← tableLine margin widths "" words
  let lines ← rows.zipIdx.mapM fun (row, first) => do tableLine margin widths (← item words first) row
  return header ++ String.join lines

theorem fieldAt_eq (chart : Chart) (first last : Nat) :
    fieldAt chart first last = (chart.fieldAt first last).mapError .chart := by
  unfold fieldAt Chart.fieldAt
  split
  · rfl
  · rw [symbolsAt_eq, mapError_bind]
    rfl

theorem zipIdx_mapM {α β γ : Type} {others : List β} {items : List α} {read : α × Nat → Except Fault γ}
    {next : β → α → γ} (start : Nat) (each : ∀ item ∈ items, ∀ place other, others[place]? = some other →
      read (item, place) = .ok (next other item)) (enough : start + items.length ≤ others.length) :
    (items.zipIdx start).mapM read = .ok (List.zipWith next (others.drop start) items) := by
  induction items generalizing start with
  | nil => simp
  | cons item rest step =>
    rw [List.length_cons] at enough
    obtain ⟨head, tail⟩ := List.forall_mem_cons.mp each
    have here : start < others.length := by omega
    rw [List.zipIdx_cons, List.mapM_cons, head start _ (List.getElem?_eq_getElem here), ok_bind,
      step (start + 1) tail (by omega), ok_bind, List.drop_eq_getElem_cons here]
    rfl

theorem tableLine_eq {widths : List Nat} {fields : List String} (margin : Nat) (name : String)
    (enough : fields.length ≤ widths.length) :
    tableLine margin widths name fields = .ok (Chart.tableLine margin widths name fields) := by
  have each : ∀ field ∈ fields, ∀ place width, widths[place]? = some width →
      (do return " | " ++ padTo (← item widths place) field : Except Fault String) =
        .ok (" | " ++ padTo width field) := by
    intro field _ place width found
    rw [item_ok found]
    rfl
  unfold tableLine Chart.tableLine
  rw [zipIdx_mapM 0 each (by omega)]
  rfl

theorem widened_at {place width : Nat} {widths : List Nat} (even : ∀ row ∈ rows, place < row.length)
    (found : widths[place]? = some width) :
    ∃ fields, rows.mapM (fun row => item row place) = .ok fields ∧
      (Chart.widened widths rows)[place]? =
        some (fields.foldl (fun width text => max width text.length) width) := by
  induction rows generalizing widths width with
  | nil => exact ⟨[], rfl, found⟩
  | cons row rest step =>
    obtain ⟨here, others⟩ := List.forall_mem_cons.mp even
    have field : row[place]? = some row[place] := List.getElem?_eq_getElem here
    have wider : (List.zipWith max widths (row.map String.length))[place]? =
        some (max width row[place].length) := by
      simp [List.getElem?_zipWith, found, field]
    obtain ⟨fields, read, widest⟩ := step others wider
    refine ⟨row[place] :: fields, ?_, widest⟩
    rw [List.mapM_cons, item_ok field, ok_bind, read]
    rfl

theorem columnWidth_eq {place : Nat} {word : String} (even : ∀ row ∈ rows, place < row.length)
    (found : words[place]? = some word) :
    ∃ width, columnWidth words rows place = .ok width ∧
      (Chart.columnWidths words rows)[place]? = some width := by
  obtain ⟨fields, read, widest⟩ :=
    widened_at even (show (words.map String.length)[place]? = some word.length by simp [found])
  refine ⟨longest (fields ++ [word]), by rw [columnWidth, read, ok_bind, item_ok found]; rfl, widest.trans ?_⟩
  rw [longest_from, longest, longest, List.foldl_append]
  simp [Nat.max_comm]

theorem columnWidths_eq (even : ∀ row ∈ rows, row.length = words.length) :
    (List.range words.length).mapM (columnWidth words rows) = .ok (Chart.columnWidths words rows) := by
  have each : ∀ place ∈ List.range words.length,
      columnWidth words rows place = .ok ((Chart.columnWidths words rows).getD place 0) := by
    intro place member
    obtain ⟨width, read, same⟩ :=
      columnWidth_eq (fun row listed => by rw [even row listed]; exact List.mem_range.mp member)
        (List.getElem?_eq_getElem (List.mem_range.mp member))
    rw [read, List.getD_eq_getElem?_getD, same]
    rfl
  rw [mapM_ok each, ← Chart.length_columnWidths even]
  congr
  apply List.ext_getElem
  · simp
  · intro place here there
    simp [there]

theorem table_eq (chart : Chart) : table chart = chart.table.mapError .chart := by
  have size : chart.words.toList.length = chart.size := by simp [Chart.size]
  unfold table Chart.table
  simp only [mapError_bind, mapError_mapM, fieldAt_eq]
  cases read : (List.range chart.size).mapM fun first =>
      (List.range chart.size).mapM fun last => (chart.fieldAt first last).mapError Fault.chart with
  | error fault => rfl
  | ok rows =>
    have tall : rows.length = chart.size := by
      rw [← (mapM_eq_ok.mp read).length_eq, List.length_range]
    have even : ∀ row ∈ rows, row.length = chart.size := by
      intro row member
      obtain ⟨first, _, fields⟩ := mapM_source read member
      rw [← (mapM_eq_ok.mp fields).length_eq, List.length_range]
    simp only [ok_bind]
    generalize chart.words.toList = words at size ⊢
    rw [← size] at tall even ⊢
    have widths := Chart.length_columnWidths even
    have lines : ∀ row ∈ rows, ∀ place word, words[place]? = some word →
        (do tableLine (longest words) (Chart.columnWidths words rows) (← item words place) row :
          Except Fault String) =
            .ok (Chart.tableLine (longest words) (Chart.columnWidths words rows) word row) := by
      intro row member place word found
      rw [item_ok found, ok_bind, tableLine_eq _ _ (Nat.le_of_eq ((even row member).trans widths.symm))]
    rw [columnWidths_eq even, ok_bind, tableLine_eq _ _ (Nat.le_of_eq widths.symm), ok_bind,
      zipIdx_mapM 0 lines (by omega)]
    rfl

end Checked
end Concord
