import Concord.Chart.Fill
import Concord.Chart.Trees
import Concord.Proofs.Chart.Cells

namespace Concord

-- What charts report themselves, and what would go wrong unseen: a place behind the end of a list, and a
-- difference below zero.
inductive Fault where
  | chart (error : ChartError)
  | place (index count : Nat)
  | below (whole part : Nat)
  deriving DecidableEq

namespace Checked

variable {α : Type}

def difference (whole part : Nat) : Except Fault Nat :=
  if part ≤ whole then .ok (whole - part) else .error (.below whole part)

def item (items : List α) (index : Nat) : Except Fault α :=
  match items[index]? with
  | some item => .ok item
  | none => .error (.place index items.length)

theorem difference_ok {whole part : Nat} (enough : part ≤ whole) :
    difference whole part = .ok (whole - part) := by
  rw [difference, if_pos enough]

theorem item_ok {items : List α} {index : Nat} {value : α} (found : items[index]? = some value) :
    item items index = .ok value := by
  rw [item, found]

-- The difference of `first` and one stops at zero on purpose.
def slot (size first last : Nat) : Except Fault Nat :=
  if first ≤ last ∧ last < size then do
    let before ← difference (first * size) (first * (first - 1) / 2)
    return before + (← difference last first)
  else .error (.chart (.outside first last size))

def cell (chart : Chart) (first last : Nat) : Except Fault (Array Nat) := do
  item chart.cells.toList (← slot chart.size first last)

def node (chart : Chart) (index : Nat) : Except Fault Node := (chart.node index).mapError .chart

def entriesAt (chart : Chart) (first last : Nat) : Except Fault (List (Nat × Node)) := do
  (← cell chart first last).toList.mapM fun index => do return (index, ← node chart index)

def nodesAt (chart : Chart) (first last : Nat) : Except Fault (List Node) := do
  return (← entriesAt chart first last).map (·.2)

def symbolsAt (chart : Chart) (first last : Nat) : Except Fault (List String) := do
  return ((← nodesAt chart first last).map (·.category.symbol)).eraseDups

def add (chart : Chart) (node : Node) : Except Fault (Option Nat × Chart) :=
  if chart.memo.contains node.key then .ok (none, chart)
  else do
    let _ ← item chart.cells.toList (← slot chart.size node.first node.last)
    return (some chart.nodes.size, chart.push node)

def addAll (chart : Chart) (nodes : List Node) : Except Fault Chart :=
  nodes.foldlM (fun chart node => (·.2) <$> add chart node) chart

-- The cuts are gone through from `first` on until `last` is reached, so their number is not computed.
def combinations (grammar : Grammar) (chart : Chart) (first last : Nat) : Except Fault (List Node) := do
  let cuts ← (List.range (last - first)).mapM fun extra => do
    let lefts ← entriesAt chart first (first + extra)
    let rights ← entriesAt chart (first + extra + 1) last
    return grammar.combineCells first last lefts rights
  return cuts.flatten

def closeFrom (grammar : Grammar) (first last : Nat) : Nat → Nat → Chart → Except Fault Chart
  | 0, _, chart => .ok chart
  | fuel + 1, position, chart => do
    match (← cell chart first last)[position]? with
    | none => .ok chart
    | some child =>
      let category := (← node chart child).category
      let chart ← addAll chart (grammar.parents first last child category)
      closeFrom grammar first last fuel (position + 1) chart

def closeUnary (grammar : Grammar) (chart : Chart) (first last : Nat) : Except Fault Chart := do
  let cell ← cell chart first last
  closeFrom grammar first last (cell.size * (1 + grammar.rules.length)) 0 chart

def fillSpan (grammar : Grammar) (tags : List (List Category)) (chart : Chart) (first last : Nat) :
    Except Fault Chart := do
  let found ← if first = last then .ok (chart.readings tags first)
    else combinations grammar chart first last
  closeUnary grammar (← addAll chart found) first last

def spans (size : Nat) : Except Fault (List (Nat × Nat)) := do
  let longer ← (List.range' 2 (size - 1)).mapM fun length => do
    (List.range ((← difference size length) + 1)).mapM fun first => do
      return (first, ← difference (first + length) 1)
  return (List.range size).map (fun position => (position, position)) ++ longer.flatten

-- As in a release build. That there is one list of tags for each word is asserted in debug builds only; here
-- a list that is missing is empty, and those behind the last word are not looked at.
def chart (grammar : Grammar) (words : List String) (tags : List (List Category)) : Except Fault Chart := do
  (← spans words.length).foldlM
    (fun chart (first, last) => fillSpan grammar tags chart first last) (.empty words)

def roots (chart : Chart) (symbol : String) : Except Fault (List Nat) :=
  if chart.size = 0 then .ok []
  else do
    let entries ← entriesAt chart 0 (← difference chart.size 1)
    return (entries.filter (·.2.category.symbol = symbol)).map (·.1)

def tree (chart : Chart) (index : Nat) : Except Fault Tree := (chart.tree index).mapError .chart

def trees (chart : Chart) (symbol : String) : Except Fault (List Tree) := do
  (← roots chart symbol).mapM (tree chart)

def render (chart : Chart) : Except Fault String := do
  let rows ← (Chart.spansByRow chart.size).mapM fun (first, last) => nodesAt chart first last
  return String.join (rows.flatten.map fun node => "  " ++ node.render ++ "\n")

variable {chart : Chart} {first last : Nat}

theorem slot_eq {size : Nat} (inside : first ≤ last ∧ last < size) :
    slot size first last = .ok (Chart.slot size first last) := by
  unfold slot
  rw [if_pos inside, difference_ok (Chart.half_le inside), difference_ok inside.1]
  rfl

theorem item_toList {items : Array α} {index : Nat} (bound : index < items.size) :
    item items.toList index = .ok items[index] := by
  apply item_ok
  rw [Array.getElem?_toList, Array.getElem?_eq_getElem bound]

theorem cell_eq (chart : Chart) (first last : Nat) :
    cell chart first last = (chart.cell first last).mapError .chart := by
  unfold cell Chart.cell
  by_cases inside : first ≤ last ∧ last < chart.size
  · rw [slot_eq inside, dif_pos inside, ok_bind, item_toList (Chart.slot_held inside)]
    rfl
  · rw [dif_neg inside, slot, if_neg inside]
    rfl

theorem entriesAt_eq (chart : Chart) (first last : Nat) :
    entriesAt chart first last = (chart.entriesAt first last).mapError .chart := by
  unfold entriesAt Chart.entriesAt node
  rw [cell_eq, mapError_bind]
  simp only [mapError_mapM, mapError_bind]
  rfl

theorem nodesAt_eq (chart : Chart) (first last : Nat) :
    nodesAt chart first last = (chart.nodesAt first last).mapError .chart := by
  unfold nodesAt Chart.nodesAt
  rw [entriesAt_eq, mapError_bind]
  rfl

theorem symbolsAt_eq (chart : Chart) (first last : Nat) :
    symbolsAt chart first last = (chart.symbolsAt first last).mapError .chart := by
  unfold symbolsAt Chart.symbolsAt
  rw [nodesAt_eq, mapError_bind]
  rfl

theorem add_eq (chart : Chart) (node : Node) : add chart node = (chart.add node).mapError .chart := by
  unfold add Chart.add
  rw [Chart.enter_run]
  by_cases known : node.key ∈ chart.memo
  · rw [if_pos known, if_pos (Std.TreeSet.contains_iff_mem.mpr known)]
    rfl
  · rw [if_neg known, if_neg fun found => known (Std.TreeSet.contains_iff_mem.mp found)]
    by_cases inside : node.first ≤ node.last ∧ node.last < chart.size
    · rw [if_pos inside, slot_eq inside, ok_bind, item_toList (Chart.slot_held inside)]
      rfl
    · rw [if_neg inside, slot, if_neg inside]
      rfl

theorem addAll_eq (chart : Chart) (nodes : List Node) :
    addAll chart nodes = (chart.addAll nodes).mapError .chart := by
  unfold addAll Chart.addAll
  rw [mapError_foldlM]
  congr
  funext chart node
  rw [add_eq]
  cases chart.add node <;> rfl

theorem combinations_eq (grammar : Grammar) (chart : Chart) (first last : Nat) :
    combinations grammar chart first last = (grammar.combinations chart first last).mapError .chart := by
  unfold combinations Grammar.combinations
  simp only [mapError_bind, mapError_mapM, entriesAt_eq]
  rfl

theorem closeFrom_eq (grammar : Grammar) (first last fuel position : Nat) (chart : Chart) :
    closeFrom grammar first last fuel position chart =
      (grammar.closeFrom first last fuel position chart).mapError .chart := by
  induction fuel generalizing position chart with
  | zero => rfl
  | succ fuel step =>
    unfold closeFrom Grammar.closeFrom
    rw [cell_eq, mapError_bind]
    congr
    funext cell
    cases cell[position]? with
    | none => rfl
    | some child => simp only [mapError_bind, node, addAll_eq, step]

theorem closeUnary_eq (grammar : Grammar) (chart : Chart) (first last : Nat) :
    closeUnary grammar chart first last = (grammar.closeUnary chart first last).mapError .chart := by
  unfold closeUnary Grammar.closeUnary
  simp only [mapError_bind, cell_eq, closeFrom_eq]

theorem fillSpan_eq (grammar : Grammar) (tags : List (List Category)) (chart : Chart) (first last : Nat) :
    fillSpan grammar tags chart first last = (grammar.fillSpan tags chart first last).mapError .chart := by
  unfold fillSpan Grammar.fillSpan
  split
  · simp only [ok_bind, mapError_bind, addAll_eq, closeUnary_eq]
  · simp only [combinations_eq, mapError_bind, addAll_eq, closeUnary_eq]

theorem roots_eq (chart : Chart) (symbol : String) :
    roots chart symbol = (chart.roots symbol).mapError .chart := by
  unfold roots Chart.roots
  by_cases none : chart.size = 0
  · rw [if_pos none, if_pos none]
    rfl
  · rw [if_neg none, if_neg none, difference_ok (by omega), ok_bind, entriesAt_eq, mapError_bind]
    rfl

theorem trees_eq (chart : Chart) (symbol : String) :
    trees chart symbol = (chart.trees symbol).mapError .chart := by
  unfold trees Chart.trees
  rw [roots_eq, mapError_bind]
  simp only [mapError_mapM]
  rfl

theorem render_eq (chart : Chart) : render chart = chart.render.mapError .chart := by
  unfold render Chart.render
  simp only [mapError_bind, mapError_mapM, nodesAt_eq]
  rfl

end Checked
end Concord
