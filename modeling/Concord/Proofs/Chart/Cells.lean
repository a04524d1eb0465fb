import Concord.Chart.Basic
import Concord.Proofs.Chart.Slots
import Concord.Proofs.Except
import Concord.Proofs.Feature.Order

namespace Concord

instance : Std.TransCmp Key.order := inferInstanceAs (Std.TransCmp (compareLex _ _))

instance : Std.LawfulEqCmp Key.order where
  eq_of_compare {one other} same := by
    simp only [Key.order, compareLex, compareOn, Ordering.then_eq_eq,
      Std.LawfulEqOrd.compare_eq_iff_eq] at same
    obtain ⟨firsts, lasts, symbols, features⟩ := same
    cases one
    cases other
    rw [Key.mk.injEq, Category.mk.injEq]
    exact ⟨firsts, lasts, symbols, features⟩

theorem zipIdx_ascending {α : Type} (items : List α) :
    items.zipIdx.Pairwise fun a b => a.2 < b.2 := by
  have places : (items.zipIdx.map Prod.snd).Pairwise (· < ·) := by
    rw [List.zipIdx_map_snd]
    exact List.pairwise_lt_range'
  exact List.pairwise_map.mp places

namespace Chart

variable {chart : Chart} {node : Node} {first last : Nat}

theorem spansByRow_slots (size : Nat) :
    (spansByRow size).map (fun span => slot size span.1 span.2) = List.range (cellCount size) := by
  have rows := rows_slots (Nat.le_refl size)
  rw [row_size] at rows
  rw [← rows, spansByRow, List.map_flatMap]
  simp only [List.map_map]
  rfl

theorem spansByRow_inside {size : Nat} (member : (first, last) ∈ spansByRow size) :
    first ≤ last ∧ last < size := by
  obtain ⟨start, row, listed⟩ := List.mem_flatMap.mp member
  obtain ⟨extra, column, same⟩ := List.mem_map.mp listed
  rw [List.mem_range] at row column
  cases same
  omega

theorem slot_held (inside : first ≤ last ∧ last < chart.size) :
    slot chart.size first last < chart.cells.size := by
  rw [chart.cells_size]
  exact slot_lt inside

theorem cell_slot (inside : first ≤ last ∧ last < chart.size) :
    ∃ places, chart.cells[slot chart.size first last]? = some places ∧ chart.cell first last = .ok places := by
  refine ⟨_, Array.getElem?_eq_getElem (slot_held inside), ?_⟩
  unfold cell
  rw [dif_pos inside]

theorem range_getD {α : Type} (items : Array α) (missing : α) :
    (List.range items.size).map (fun place => items.getD place missing) = items.toList := by
  apply List.ext_getElem
  · simp
  · intro place within bound
    have held : place < items.size := by simpa using within
    simp [held]

theorem cells_byRow (chart : Chart) :
    (spansByRow chart.size).mapM (fun span => chart.cell span.1 span.2) = .ok chart.cells.toList := by
  have each : ∀ span ∈ spansByRow chart.size,
      chart.cell span.1 span.2 = .ok (chart.cells.getD (slot chart.size span.1 span.2) #[]) := by
    intro span member
    obtain ⟨places, found, read⟩ := cell_slot (spansByRow_inside member)
    rw [read, Array.getD_eq_getD_getElem?, found]
    rfl
  have places := spansByRow_slots chart.size
  rw [mapM_ok each, ← range_getD chart.cells #[], chart.cells_size, ← size, ← places, List.map_map]
  rfl

def entries (chart : Chart) : List (Nat × Node) :=
  chart.nodes.toList.zipIdx.map fun (node, index) => (index, node)

def covering (chart : Chart) (first last : Nat) : List (Nat × Node) :=
  chart.entries.filter fun (_, node) => node.first = first ∧ node.last = last

theorem mem_entries {index : Nat} : (index, node) ∈ chart.entries ↔ chart.nodes[index]? = some node := by
  constructor
  · intro member
    obtain ⟨⟨other, place⟩, found, same⟩ := List.mem_map.mp member
    cases same
    simpa [List.mk_mem_zipIdx_iff_getElem?] using found
  · intro found
    exact List.mem_map.mpr ⟨(node, index), by simpa [List.mk_mem_zipIdx_iff_getElem?] using found, rfl⟩

theorem entries_nodes (chart : Chart) : chart.entries.map Prod.snd = chart.nodes.toList := by
  unfold entries
  rw [List.map_map]
  exact List.zipIdx_map_fst 0 _

theorem mem_covering {index : Nat} : (index, node) ∈ chart.covering first last ↔
    chart.nodes[index]? = some node ∧ node.first = first ∧ node.last = last := by
  simp [covering, mem_entries]

theorem entries_push : (chart.push node).entries = chart.entries ++ [(chart.nodes.size, node)] := by
  simp [entries, push, List.zipIdx_append]

theorem covering_push : (chart.push node).covering first last = chart.covering first last ++
    if node.first = first ∧ node.last = last then [(chart.nodes.size, node)] else [] := by
  simp only [covering, entries_push, List.filter_append, List.filter_cons, List.filter_nil, decide_eq_true_eq]

@[simp] theorem size_push : (chart.push node).size = chart.size := rfl

theorem nodes_push : (chart.push node).nodes.toList = chart.nodes.toList ++ [node] :=
  Array.toList_push

def Inside (size : Nat) (node : Node) : Prop := node.first ≤ node.last ∧ node.last < size

instance (size : Nat) (node : Node) : Decidable (Inside size node) :=
  inferInstanceAs (Decidable (_ ∧ _))

-- What any run of additions keeps. The cells and the memo say nothing that the nodes do not say.
structure Filed (chart : Chart) : Prop where
  inside : ∀ node ∈ chart.nodes.toList, Inside chart.size node
  cells : ∀ first last, first ≤ last ∧ last < chart.size →
    chart.cells[slot chart.size first last]? = some ((chart.covering first last).map Prod.fst).toArray
  distinct : chart.nodes.toList.Pairwise fun a b =>
    ¬ (a.first = b.first ∧ a.last = b.last ∧ a.category = b.category)
  memo : ∀ key, key ∈ chart.memo ↔ ∃ node ∈ chart.nodes.toList, node.key = key

theorem Filed.empty (words : List String) : (Chart.empty words).Filed where
  inside := by simp [Chart.empty]
  cells := by
    intro first last inside
    have bound : slot words.length first last < cellCount words.length :=
      slot_lt (by simpa [Chart.empty, size] using inside)
    simp [Chart.empty, size, covering, entries, bound]
  distinct := by simp [Chart.empty]
  memo := by simp [Chart.empty]

def held (chart : Chart) (node : Node) : Prop :=
  ∃ entry ∈ chart.covering node.first node.last, entry.2.category = node.category

instance : Decidable (held chart node) := inferInstanceAs (Decidable (∃ entry ∈ _, _))

theorem Filed.push (filed : chart.Filed) (inside : Inside chart.size node)
    (fresh : ¬ chart.held node) : (chart.push node).Filed where
  inside := by
    intro other member
    rw [nodes_push, List.mem_append, List.mem_singleton] at member
    rcases member with old | rfl
    · exact filed.inside other old
    · exact inside
  cells := by
    intro first last within
    have old := filed.cells first last within
    have bound := slot_lt within
    rw [covering_push, size_push, Chart.push, Array.getElem?_modify, old]
    by_cases here : node.first = first ∧ node.last = last
    · obtain ⟨rfl, rfl⟩ := here
      simp
    · have apart : slot chart.size node.first node.last ≠ slot chart.size first last :=
        fun same => here (slot_injective inside within same)
      simp [here, apart]
  distinct := by
    rw [nodes_push, List.pairwise_append]
    refine ⟨filed.distinct, by simp, ?_⟩
    intro other old new single
    cases List.mem_singleton.mp single
    rintro ⟨starts, ends, same⟩
    obtain ⟨index, found⟩ := List.mem_iff_getElem?.mp old
    exact fresh ⟨(index, other), mem_covering.mpr ⟨by simpa using found, starts, ends⟩, same⟩
  memo := by
    intro key
    rw [nodes_push, Chart.push, Std.TreeSet.mem_insert, filed.memo, Std.LawfulEqCmp.compare_eq_iff_eq]
    simp only [List.mem_append, List.mem_singleton, or_and_right, exists_or, exists_eq_left]
    exact or_comm

theorem Filed.inside_at {index : Nat} (filed : chart.Filed) (found : chart.nodes[index]? = some node) :
    Inside chart.size node :=
  filed.inside node (by simpa using Array.mem_of_getElem? found)

theorem Filed.cell_eq (filed : chart.Filed) (inside : first ≤ last ∧ last < chart.size) :
    chart.cell first last = .ok ((chart.covering first last).map Prod.fst).toArray := by
  have found := filed.cells first last inside
  obtain ⟨bound, same⟩ := Array.getElem?_eq_some_iff.mp found
  simp [cell, inside, same]

theorem entry_node {index : Nat} (found : chart.nodes[index]? = some node) :
    chart.node index = .ok node := by
  simp [Chart.node, found]

theorem Filed.entriesAt_eq (filed : chart.Filed) (inside : first ≤ last ∧ last < chart.size) :
    chart.entriesAt first last = .ok (chart.covering first last) := by
  unfold entriesAt
  rw [filed.cell_eq inside]
  change ((chart.covering first last).map Prod.fst).mapM _ = _
  rw [List.mapM_map]
  have each : ∀ entry ∈ chart.covering first last,
      (do return (entry.1, ← chart.node entry.1) : Except ChartError (Nat × Node)) = .ok (id entry) := by
    rintro ⟨index, node⟩ member
    rw [entry_node (mem_covering.mp member).1]
    rfl
  exact (mapM_ok each).trans (by rw [List.map_id])

theorem Filed.nodesAt_eq (filed : chart.Filed) (inside : first ≤ last ∧ last < chart.size) :
    chart.nodesAt first last = .ok ((chart.covering first last).map Prod.snd) := by
  unfold nodesAt
  rw [filed.entriesAt_eq inside]
  rfl

theorem Filed.covering_distinct (filed : chart.Filed) :
    (chart.covering first last).Pairwise fun a b => a.2.category ≠ b.2.category := by
  have distinct := filed.distinct
  rw [← chart.entries_nodes, List.pairwise_map] at distinct
  refine (distinct.filter _).imp_of_mem ?_
  rintro ⟨index, node⟩ ⟨index', node'⟩ member member' apart same
  obtain ⟨_, starts, ends⟩ := mem_covering.mp member
  obtain ⟨_, starts', ends'⟩ := mem_covering.mp member'
  exact apart ⟨starts.trans starts'.symm, ends.trans ends'.symm, same⟩

def put (chart : Chart) (node : Node) : Chart := if chart.held node then chart else chart.push node

theorem Filed.mem_memo (filed : chart.Filed) : node.key ∈ chart.memo ↔ chart.held node := by
  rw [filed.memo]
  constructor
  · rintro ⟨other, member, same⟩
    obtain ⟨index, found⟩ := List.mem_iff_getElem?.mp member
    obtain ⟨starts, ends, category⟩ := Key.mk.injEq .. ▸ same
    exact ⟨(index, other), mem_covering.mpr ⟨by simpa using found, starts, ends⟩, category⟩
  · rintro ⟨⟨index, other⟩, member, category⟩
    obtain ⟨found, starts, ends⟩ := mem_covering.mp member
    refine ⟨other, by simpa using Array.mem_of_getElem? found, ?_⟩
    rw [Node.key, starts, ends, category, Node.key]

theorem enter_run (chart : Chart) (node : Node) : (enter node).run chart =
    if node.key ∈ chart.memo then .ok none chart
    else if node.first ≤ node.last ∧ node.last < chart.size then
      .ok (some chart.nodes.size) (chart.push node)
    else .error (.outside node.first node.last chart.size) chart := by
  have asked : (enter node).run chart =
      ((if chart.memo.contains node.key then return none
        else if node.first ≤ node.last ∧ node.last < chart.size then do
          set (chart.push node)
          return some chart.nodes.size
        else throw (.outside node.first node.last chart.size) :
        EStateM ChartError Chart (Option Nat))).run chart := rfl
  rw [asked]
  by_cases known : node.key ∈ chart.memo
  · rw [if_pos known, if_pos (Std.TreeSet.contains_iff_mem.mpr known)]
    rfl
  · rw [if_neg known, if_neg fun found => known (Std.TreeSet.contains_iff_mem.mp found)]
    split
    · rfl
    · rfl

theorem Filed.add_eq (filed : chart.Filed) (inside : Inside chart.size node) :
    chart.add node = .ok
      (if chart.held node then (none, chart) else (some chart.nodes.size, chart.push node)) := by
  unfold Inside at inside
  unfold add
  rw [enter_run]
  by_cases old : chart.held node
  · rw [if_pos (filed.mem_memo.mpr old), if_pos old]
  · rw [if_neg fun known => old (filed.mem_memo.mp known), if_pos inside, if_neg old]

theorem Filed.put (filed : chart.Filed) (inside : Inside chart.size node) :
    (chart.put node).Filed := by
  unfold Chart.put
  split
  · exact filed
  · rename_i fresh
    exact filed.push inside fresh

@[simp] theorem size_put : (chart.put node).size = chart.size := by
  unfold put
  split <;> rfl

theorem Filed.addAll_eq {nodes : List Node} (filed : chart.Filed)
    (inside : ∀ node ∈ nodes, Inside chart.size node) :
    chart.addAll nodes = .ok (nodes.foldl Chart.put chart) := by
  induction nodes generalizing chart with
  | nil => rfl
  | cons node rest step =>
    have here := inside node (by simp)
    have later := step (filed.put here) fun other member => by
      simpa using inside other (by simp [member])
    unfold addAll at later ⊢
    rw [List.foldlM_cons, filed.add_eq here, List.foldl_cons, ← later]
    by_cases old : chart.held node
    · simp [old, Chart.put]
    · simp [old, Chart.put]

end Chart
end Concord
