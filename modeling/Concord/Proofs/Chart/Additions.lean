import Concord.Proofs.Chart.Cells
import Mathlib.Logic.ExistsUnique

namespace Concord.Chart

variable {chart : Chart} {node : Node} {first last index place : Nat} {cell : Array Nat}

def after (chart : Chart) (node : Node) : Chart :=
  match (enter node).run chart with
  | .ok _ next => next
  | .error _ next => next

def afterAll (chart : Chart) (nodes : List Node) : Chart := nodes.foldl after chart

def keys (chart : Chart) : List Key := chart.nodes.toList.map Node.key

-- The nodes, the cells and the memo of a chart say the same. The cells are those of the spans, each
-- once; where a node stands is said by its span alone.
structure Consistent (chart : Chart) : Prop where
  count : chart.cells.size = chart.size * (chart.size + 1) / 2
  rows : (spansByRow chart.size).mapM (fun span => chart.cell span.1 span.2) = .ok chart.cells.toList
  inside : ∀ node ∈ chart.nodes, Inside chart.size node
  placed : ∀ first last, first ≤ last ∧ last < chart.size →
    ∃ cell, chart.cell first last = .ok cell ∧ cell.toList.Pairwise (· < ·) ∧
      ∀ index, index ∈ cell ↔
        ∃ node, chart.nodes[index]? = some node ∧ node.first = first ∧ node.last = last
  once : ∀ index, index < chart.nodes.size →
    ∃! place : Nat, ∃ cell, chart.cells[place]? = some cell ∧ index ∈ cell
  distinct : chart.keys.Nodup
  memo : ∀ key, key ∈ chart.memo ↔ key ∈ chart.keys

structure Appends (chart : Chart) (node : Node) (next : Chart) : Prop where
  words : next.words = chart.words
  nodes : next.nodes = chart.nodes.push node
  here : ∃ cell, chart.cell node.first node.last = .ok cell ∧
    next.cell node.first node.last = .ok (cell.push chart.nodes.size)
  elsewhere : ∀ first last, (first, last) ≠ (node.first, node.last) →
    next.cell first last = chart.cell first last
  memo : ∀ key, key ∈ next.memo ↔ key = node.key ∨ key ∈ chart.memo

structure Answers (chart : Chart) (node : Node) : Prop where
  known : ∀ next, (enter node).run chart = .ok none next ↔ node.key ∈ chart.keys ∧ next = chart
  refused : ∀ error next, (enter node).run chart = .error error next ↔
    ¬ Inside chart.size node ∧ error = .outside node.first node.last chart.size ∧ next = chart
  added : ∀ place next, (enter node).run chart = .ok (some place) next →
    place = chart.nodes.size ∧ chart.Appends node next

theorem covering_ascending (chart : Chart) (first last : Nat) :
    ((chart.covering first last).map Prod.fst).Pairwise (· < ·) := by
  have ascending : chart.entries.Pairwise fun a b => a.1 < b.1 :=
    List.pairwise_map.mpr (zipIdx_ascending chart.nodes.toList)
  exact List.pairwise_map.mpr (ascending.filter _)

theorem Filed.cell_at (filed : chart.Filed) (found : chart.cells[place]? = some cell) :
    ∃ first last, (first ≤ last ∧ last < chart.size) ∧ place = slot chart.size first last ∧
      cell.toList = (chart.covering first last).map Prod.fst := by
  have bound : place < chart.cells.size := (Array.getElem?_eq_some_iff.mp found).1
  have early : place < cellCount chart.size := chart.cells_size ▸ bound
  obtain ⟨first, last, inside, rfl⟩ := slot_surjective early
  have read := filed.cells first last inside
  rw [found] at read
  exact ⟨first, last, inside, rfl, by rw [Option.some.inj read]⟩

theorem Filed.mem_cell (filed : chart.Filed) (found : chart.nodes[index]? = some node)
    (read : chart.cells[place]? = some cell) :
    index ∈ cell ↔ place = slot chart.size node.first node.last := by
  obtain ⟨first, last, inside, rfl, cover⟩ := filed.cell_at read
  have within := filed.inside_at found
  rw [← Array.mem_toList_iff, cover]
  constructor
  · intro member
    obtain ⟨⟨index, other⟩, covered, rfl⟩ := List.mem_map.mp member
    obtain ⟨there, rfl, rfl⟩ := mem_covering.mp covered
    rw [Option.some.inj (there.symm.trans found)]
  · intro same
    obtain ⟨rfl, rfl⟩ := slot_injective inside within same
    exact List.mem_map_of_mem (mem_covering.mpr ⟨found, rfl, rfl⟩)

theorem Filed.keys_nodup (filed : chart.Filed) : chart.keys.Nodup := by
  unfold keys List.Nodup
  rw [List.pairwise_map]
  refine filed.distinct.imp fun apart same => apart ?_
  simpa [Node.key] using same

theorem Filed.mem_keys (filed : chart.Filed) (key : Key) : key ∈ chart.memo ↔ key ∈ chart.keys := by
  rw [filed.memo, keys, List.mem_map]

theorem Filed.placed (filed : chart.Filed) (inside : first ≤ last ∧ last < chart.size) :
    ∃ cell, chart.cell first last = .ok cell ∧ cell.toList.Pairwise (· < ·) ∧
      ∀ index, index ∈ cell ↔
        ∃ node, chart.nodes[index]? = some node ∧ node.first = first ∧ node.last = last := by
  refine ⟨_, filed.cell_eq inside, chart.covering_ascending first last, ?_⟩
  intro index
  constructor
  · intro member
    obtain ⟨⟨index, node⟩, covered, rfl⟩ := List.mem_map.mp (List.mem_toArray.mp member)
    exact ⟨node, mem_covering.mp covered⟩
  · intro ⟨node, covered⟩
    exact List.mem_toArray.mpr (List.mem_map_of_mem (mem_covering.mpr covered))

theorem Filed.once (filed : chart.Filed) (bound : index < chart.nodes.size) :
    ∃! place : Nat, ∃ cell, chart.cells[place]? = some cell ∧ index ∈ cell := by
  have found := Array.getElem?_eq_getElem bound
  have held := filed.cells _ _ (filed.inside_at found)
  refine ⟨_, ⟨_, held, (filed.mem_cell found held).mpr rfl⟩, ?_⟩
  intro place ⟨cell, read, member⟩
  exact (filed.mem_cell found read).mp member

theorem Filed.consistent (filed : chart.Filed) : chart.Consistent where
  count := chart.cells_size
  rows := chart.cells_byRow
  inside := fun node member => filed.inside node (Array.mem_toList_iff.mpr member)
  placed := fun _ _ => filed.placed
  once := fun _ => filed.once
  distinct := filed.keys_nodup
  memo := filed.mem_keys

theorem cell_push_self (inside : Inside chart.size node) :
    ∃ cell, chart.cell node.first node.last = .ok cell ∧
      (chart.push node).cell node.first node.last = .ok (cell.push chart.nodes.size) := by
  have grown : Inside (chart.push node).size node := inside
  obtain ⟨cell, found, read⟩ := cell_slot inside
  obtain ⟨places, found', read'⟩ := cell_slot grown
  refine ⟨cell, read, read'.trans ?_⟩
  rw [size_push, push, Array.getElem?_modify, if_pos rfl, found] at found'
  rw [← Option.some.inj found']

theorem cell_push_ne (inside : Inside chart.size node) (apart : (first, last) ≠ (node.first, node.last)) :
    (chart.push node).cell first last = chart.cell first last := by
  by_cases within : first ≤ last ∧ last < chart.size
  · have grown : first ≤ last ∧ last < (chart.push node).size := within
    obtain ⟨cell, found, read⟩ := cell_slot within
    obtain ⟨places, found', read'⟩ := cell_slot grown
    have elsewhere : slot chart.size node.first node.last ≠ slot chart.size first last := by
      intro same
      obtain ⟨starts, ends⟩ := slot_injective within inside same.symm
      exact apart (Prod.ext starts ends)
    rw [size_push, push, Array.getElem?_modify, if_neg elsewhere, found] at found'
    rw [read, read', Option.some.inj found']
  · unfold cell
    rw [dif_neg within, dif_neg (show ¬ (first ≤ last ∧ last < (chart.push node).size) from within)]
    rfl

theorem push_appends (inside : Inside chart.size node) : chart.Appends node (chart.push node) where
  words := rfl
  nodes := rfl
  here := cell_push_self inside
  elsewhere := fun _ _ => cell_push_ne inside
  memo := by
    intro key
    rw [push, Std.TreeSet.mem_insert, Std.LawfulEqCmp.compare_eq_iff_eq, eq_comm]

-- A known key is the key of a node that has a cell, so asking the memo first hides no refusal.
theorem Filed.inside_of_known (filed : chart.Filed) (known : node.key ∈ chart.memo) :
    Inside chart.size node := by
  obtain ⟨other, member, same⟩ := (filed.memo _).mp known
  obtain ⟨starts, ends, _⟩ := Key.mk.injEq .. ▸ same
  have within := filed.inside other member
  unfold Inside at within ⊢
  rwa [starts, ends] at within

theorem Filed.answers (filed : chart.Filed) (node : Node) : chart.Answers node where
  known := by
    intro next
    rw [enter_run, ← filed.mem_keys]
    by_cases known : node.key ∈ chart.memo
    · rw [if_pos known]
      simp [known, eq_comm]
    · rw [if_neg known]
      split <;> simp [known]
  refused := by
    intro error next
    rw [enter_run]
    by_cases known : node.key ∈ chart.memo
    · rw [if_pos known]
      simp [filed.inside_of_known known]
    · rw [if_neg known]
      by_cases within : node.first ≤ node.last ∧ node.last < chart.size
      · rw [if_pos within]
        simp [Inside, within]
      · rw [if_neg within]
        simp [Inside, within, eq_comm]
  added := by
    intro place next ran
    rw [enter_run] at ran
    split at ran
    · cases ran
    · split at ran
      · rename_i within
        cases ran
        exact ⟨rfl, push_appends within⟩
      · cases ran

theorem after_eq (chart : Chart) (node : Node) : chart.after node =
    if node.key ∉ chart.memo ∧ Inside chart.size node then chart.push node else chart := by
  unfold after Inside
  rw [enter_run]
  by_cases known : node.key ∈ chart.memo
  · simp [known]
  · by_cases within : node.first ≤ node.last ∧ node.last < chart.size
    · simp [known, within]
    · simp [known, within]

theorem Filed.after (filed : chart.Filed) (node : Node) : (chart.after node).Filed := by
  rw [after_eq]
  split
  · rename_i new
    exact filed.push new.2 fun held => new.1 (filed.mem_memo.mpr held)
  · exact filed

theorem Filed.afterAll (filed : chart.Filed) (nodes : List Node) : (chart.afterAll nodes).Filed := by
  induction nodes generalizing chart with
  | nil => exact filed
  | cons node rest step => exact step (filed.after node)

theorem after_words (chart : Chart) (node : Node) : (chart.after node).words = chart.words := by
  rw [after_eq]
  split <;> rfl

theorem afterAll_words (chart : Chart) (nodes : List Node) :
    (chart.afterAll nodes).words = chart.words := by
  induction nodes generalizing chart with
  | nil => rfl
  | cons node rest step => exact (step (chart.after node)).trans (chart.after_words node)

theorem additions_consistent (words : List String) (nodes : List Node) :
    ((Chart.empty words).afterAll nodes).words.toList = words ∧
      ((Chart.empty words).afterAll nodes).Consistent ∧
      ∀ node, ((Chart.empty words).afterAll nodes).Answers node := by
  have filed : ((Chart.empty words).afterAll nodes).Filed := (Filed.empty words).afterAll nodes
  refine ⟨?_, filed.consistent, filed.answers⟩
  rw [afterAll_words]
  simp [empty]

end Concord.Chart
