import Mathlib.Algebra.GroupWithZero.Nat
import Concord.Proofs.Chart.Columns

namespace Concord

open Text

def cut (line : String) (start count : Nat) : String :=
  String.ofList ((line.toList.drop start).take count)

section Cutting

variable {line text : String} {start : Nat} {rest : List Char}

theorem cut_eq (found : line.toList.drop start = text.toList ++ rest) : cut line start text.length = text := by
  rw [cut, found, ← String.length_toList, List.take_left, String.ofList_toList]

theorem drop_behind (found : line.toList.drop start = text.toList ++ rest) :
    line.toList.drop (start + text.length) = rest := by
  rw [← List.drop_drop, found, ← String.length_toList, List.drop_left]

end Cutting

def FillsUp (width : Nat) (text filled : String) : Prop :=
  ∃ count, filled = text ++ String.ofList (List.replicate count ' ') ∧ filled.length = width

theorem length_padTo {width : Nat} {text : String} (fits : text.length ≤ width) :
    (padTo width text).length = width := by
  rw [padTo, String.length_append, String.length_ofList, List.length_replicate]
  omega

theorem padTo_fillsUp {width : Nat} {text : String} (fits : text.length ≤ width) :
    FillsUp width text (padTo width text) :=
  ⟨width - text.length, rfl, length_padTo fits⟩

namespace Chart

def separatorAt (margin : Nat) (widths : List Nat) (column : Nat) : Nat :=
  margin + ((widths.map (3 + ·)).take column).sum

structure Row (margin : Nat) (widths : List Nat) (name : String) (fields : List String) (line : String) : Prop where
  length : line.length = separatorAt margin widths widths.length + 2
  name : FillsUp margin name (cut line 0 margin)
  separators : ∀ column < widths.length, cut line (separatorAt margin widths column) 3 = " | "
  fields : ∀ (column width : Nat) (field : String), widths[column]? = some width → fields[column]? = some field →
    FillsUp width field (cut line (separatorAt margin widths column + 3) width)
  ends : cut line (separatorAt margin widths widths.length) 2 = " |"

variable {margin place width : Nat} {widths : List Nat} {header : List String} {rows : List (List String)}
  {name field word : String} {fields : List String}

def rowText (margin : Nat) (widths : List Nat) (name : String) (fields : List String) : String :=
  padTo margin name ++ String.join (List.zipWith (fun width field => " | " ++ padTo width field) widths fields) ++ " |"

theorem tableLine_eq (margin : Nat) (widths : List Nat) (name : String) (fields : List String) :
    tableLine margin widths name fields = rowText margin widths name fields ++ "\n" := by
  simp [tableLine, rowText, ← String.toList_inj]

def pieces (widths : List Nat) (fields : List String) : List String :=
  List.zipWith (fun width field => " | " ++ padTo width field) widths fields

theorem pieces_at (wide : widths[place]? = some width) (found : fields[place]? = some field) :
    (pieces widths fields)[place]? = some (" | " ++ padTo width field) := by
  simp [pieces, List.getElem?_zipWith, wide, found]

def Fit (widths : List Nat) (fields : List String) : Prop :=
  fields.length = widths.length ∧ ∀ (place width : Nat) (field : String), widths[place]? = some width →
    fields[place]? = some field → field.length ≤ width

theorem Fit.lengths (fit : Fit widths fields) : (pieces widths fields).map String.length = widths.map (3 + ·) := by
  apply List.ext_getElem?
  intro place
  rw [List.getElem?_map, List.getElem?_map]
  cases wide : widths[place]? with
  | none =>
    simp [pieces, List.getElem?_zipWith, wide]
  | some width =>
    have bound : place < fields.length := fit.1 ▸ (List.getElem?_eq_some_iff.mp wide).1
    have found := List.getElem?_eq_getElem bound
    rw [pieces_at wide found, Option.map_some, Option.map_some, String.length_append,
      length_padTo (fit.2 place width _ wide found)]
    rfl

theorem Fit.drop_row (fit : Fit widths fields) (named : name.length ≤ margin) (column : Nat) :
    (rowText margin widths name fields).toList.drop (separatorAt margin widths column) =
      (String.join ((pieces widths fields).drop column)).toList ++ " |".toList := by
  have before : (padTo margin name ++ String.join ((pieces widths fields).take column)).length =
      separatorAt margin widths column := by
    rw [String.length_append, length_padTo named, String.length_join, List.map_take, fit.lengths]
    rfl
  have parts : rowText margin widths name fields =
      (padTo margin name ++ String.join ((pieces widths fields).take column)) ++
        (String.join ((pieces widths fields).drop column) ++ " |") := by
    have whole : String.join (pieces widths fields) = String.join ((pieces widths fields).take column) ++
        String.join ((pieces widths fields).drop column) := by
      rw [← String.join_append, List.take_append_drop]
    rw [rowText, ← pieces, whole]
    simp only [String.append_assoc]
  rw [← before, parts, String.toList_append, ← String.length_toList, List.drop_left, String.toList_append]

theorem Fit.row (fit : Fit widths fields) (named : name.length ≤ margin) :
    Row margin widths name fields (rowText margin widths name fields) := by
  have ends := fit.drop_row named widths.length
  have nothing : (pieces widths fields).drop widths.length = [] := List.drop_eq_nil_iff.mpr (by simp [pieces, fit.1])
  rw [nothing, String.join_nil] at ends
  -- A column begins with its separator and goes on with its field.
  have inside (column width : Nat) (field : String) (wide : widths[column]? = some width)
      (found : fields[column]? = some field) :
      ∃ rest, (rowText margin widths name fields).toList.drop (separatorAt margin widths column) =
        " | ".toList ++ ((padTo width field).toList ++ rest) := by
    obtain ⟨bound, here⟩ := List.getElem?_eq_some_iff.mp (pieces_at wide found)
    rw [fit.drop_row named, List.drop_eq_getElem_cons bound, here, String.join_cons, String.toList_append,
      String.toList_append, List.append_assoc, List.append_assoc]
    exact ⟨_, rfl⟩
  have closing : (rowText margin widths name fields).toList.drop (separatorAt margin widths widths.length) =
      " |".toList ++ [] := ends
  refine ⟨?_, ?_, ?_, ?_, cut_eq closing⟩
  · have total : (rowText margin widths name fields).length =
        (padTo margin name).length + ((pieces widths fields).map String.length).sum + " |".length := by
      rw [rowText, String.length_append, String.length_append, ← pieces, String.length_join]
    rw [total, length_padTo named, fit.lengths, separatorAt, List.take_of_length_le (by simp)]
    rfl
  · have begins : (rowText margin widths name fields).toList.drop 0 =
        (padTo margin name).toList ++ ((String.join (pieces widths fields)).toList ++ " |".toList) := by
      rw [List.drop_zero, rowText, ← pieces, String.toList_append, String.toList_append, List.append_assoc]
    have shown := cut_eq begins
    rw [length_padTo named] at shown
    exact shown ▸ padTo_fillsUp named
  · intro column bound
    have bound' : column < fields.length := fit.1 ▸ bound
    obtain ⟨rest, begins⟩ := inside column _ _ (List.getElem?_eq_getElem bound) (List.getElem?_eq_getElem bound')
    exact cut_eq begins
  · intro column width field wide found
    obtain ⟨rest, begins⟩ := inside column width field wide found
    have fits := fit.2 column width field wide found
    have shown := cut_eq (drop_behind begins)
    rw [length_padTo fits] at shown
    exact shown ▸ padTo_fillsUp fits

end Chart
end Concord
