import Mathlib.Data.List.Forall2
import Concord.Proofs.Chart.Filled

namespace Concord

def Extent.shift (offset : Nat) (extent : Extent) : Extent :=
  ⟨extent.start + offset, extent.stop + offset⟩

namespace Tree

mutual

def shift (offset : Nat) : Tree → Tree
  | leaf word extent => leaf word (extent.shift offset)
  | branch symbol extent children => branch symbol (extent.shift offset) (shiftAll offset children)

def shiftAll (offset : Nat) : List Tree → List Tree
  | [] => []
  | tree :: rest => shift offset tree :: shiftAll offset rest

end

end Tree

def Constituent.shift (offset : Nat) (part : Constituent) : Constituent :=
  ⟨part.category, part.tree.shift offset⟩

theorem extent_shift (offset first last : Nat) :
    (⟨first + offset, last + offset + 1⟩ : Extent) = Extent.shift offset ⟨first, last + 1⟩ := by
  simp only [Extent.shift, Extent.mk.injEq, true_and]
  omega

structure Agree (offset size : Nat) (words words' : List String) (tags tags' : List (List Category)) :
    Prop where
  words : ∀ position < size, words[position + offset]? = words'[position]?
  tags : ∀ position < size, tags[position + offset]? = tags'[position]?

section Shift

variable {words words' : List String} {tags tags' : List (List Category)}
  {offset size position first last : Nat}

theorem Agree.readings (agree : Agree offset size words words' tags tags') (within : position < size) :
    readingsAt words tags (position + offset) =
      (readingsAt words' tags' position).map (Constituent.shift offset) := by
  unfold readingsAt
  rw [agree.words position within, agree.tags position within]
  cases words'[position]? with
  | none => rfl
  | some text =>
    cases tags'[position]? with
    | none => rfl
    | some categories =>
      simp only [List.map_map]
      refine List.map_congr_left fun category _ => ?_
      simp only [Function.comp_apply, Constituent.shift, Tree.shift, Tree.shiftAll,
        extent_shift offset position position]

namespace Grammar

variable {grammar : Grammar}

theorem raise_shift (part : Constituent) :
    grammar.raise (first + offset) (last + offset) (part.shift offset) =
      (grammar.raise first last part).map (Constituent.shift offset) := by
  unfold raise
  rw [List.map_map, extent_shift]
  exact List.map_congr_left fun rule _ => rfl

theorem join_shift (lefts rights : List Constituent) :
    grammar.join (first + offset) (last + offset) (lefts.map (Constituent.shift offset))
        (rights.map (Constituent.shift offset)) =
      (grammar.join first last lefts rights).map (Constituent.shift offset) := by
  unfold join
  rw [List.map_flatMap, List.flatMap_map]
  refine List.flatMap_congr fun left _ => ?_
  rw [List.map_flatMap, List.flatMap_map]
  refine List.flatMap_congr fun right _ => ?_
  rw [List.map_map, extent_shift]
  exact List.map_congr_left fun rule _ => rfl

theorem settle_shift (seeds : List Constituent) :
    grammar.settle (first + offset) (last + offset) (seeds.map (Constituent.shift offset)) =
      (grammar.settle first last seeds).map (Constituent.shift offset) := by
  have label : ∀ part : Constituent, (part.shift offset).category = part.category := fun _ => rfl
  have kept : FirstWins.keepAll Constituent.category [] (seeds.map (Constituent.shift offset)) =
      (FirstWins.keepAll Constituent.category [] seeds).map (Constituent.shift offset) := by
    rw [FirstWins.keepAll_map label, List.map_nil]
  unfold settle closing
  rw [kept]
  dsimp only
  rw [List.length_map]
  exact (FirstWins.closeFrom_map label raise_shift).symm

theorem seeds_shift {cells cells' : Nat → Nat → List Constituent}
    (agree : Agree offset size words words' tags tags') (inside : last < size)
    (same : ∀ first' last', first ≤ first' → first' ≤ last' → last' ≤ last →
      last' - first' < last - first →
      cells (first' + offset) (last' + offset) = (cells' first' last').map (Constituent.shift offset)) :
    grammar.seeds words tags cells (first + offset) (last + offset) =
      (grammar.seeds words' tags' cells' first last).map (Constituent.shift offset) := by
  unfold seeds
  by_cases single : first = last
  · subst single
    rw [if_pos rfl, if_pos rfl]
    exact agree.readings inside
  · have width : last + offset - (first + offset) = last - first := by omega
    rw [if_neg (by omega), if_neg single, List.map_flatMap, width]
    refine List.flatMap_congr fun extra member => ?_
    have short : extra < last - first := List.mem_range.mp member
    have left := same first (first + extra) (by omega) (by omega) (by omega) (by omega)
    have right := same (first + extra + 1) last (by omega) (by omega) (by omega) (by omega)
    have cut : first + offset + extra = first + extra + offset := by omega
    have next : first + extra + offset + 1 = first + extra + 1 + offset := by omega
    rw [cut, next, left, right, join_shift]

variable {chart window : Chart}

-- By induction on the length of the span: both cells are settled from shorter cells, which agree.
theorem Filled.constituents_shift (filled : grammar.Filled words tags chart)
    (filled' : grammar.Filled words' tags' window) (agree : Agree offset size words words' tags tags')
    (inside : first ≤ last ∧ last < size) (bound : last + offset < words.length)
    (bound' : last < words'.length) :
    chart.constituents (first + offset) (last + offset) =
      (window.constituents first last).map (Constituent.shift offset) := by
  induction width : last - first using Nat.strongRecOn generalizing first last with
  | ind width shorter =>
    rw [filled.settled _ _ ⟨by omega, bound⟩, filled'.settled _ _ ⟨inside.1, bound'⟩, ← settle_shift]
    congr 1
    refine seeds_shift agree inside.2 fun first' last' _ ordered _ less => ?_
    exact shorter (last' - first') (by omega) ⟨ordered, by omega⟩ (by omega) (by omega) rfl

theorem Filled.entries_shift (filled : grammar.Filled words tags chart)
    (filled' : grammar.Filled words' tags' window)
    (same : chart.constituents (first + offset) (last + offset) =
      (window.constituents first last).map (Constituent.shift offset)) :
    List.Forall₂ (fun entry entry' => entry.2.category = entry'.2.category ∧
        ∃ tree, window.tree entry'.1 = .ok tree ∧ chart.tree entry.1 = .ok (tree.shift offset))
      (chart.covering (first + offset) (last + offset)) (window.covering first last) := by
  unfold Chart.constituents at same
  rw [List.map_map, ← List.forall₂_eq_eq_eq, List.forall₂_map_left_iff, List.forall₂_map_right_iff,
    List.forall₂_iff_zip] at same
  refine List.forall₂_iff_zip.mpr ⟨same.1, ?_⟩
  rintro ⟨index, node⟩ ⟨index', node'⟩ paired
  obtain ⟨member, member'⟩ := List.of_mem_zip paired
  have alike : node.constituent chart.forest = (node'.constituent window.forest).shift offset :=
    same.2 paired
  have read := filled.sound.rooted.tree_eq (Chart.mem_covering.mp member).1
  have read' := filled'.sound.rooted.tree_eq (Chart.mem_covering.mp member').1
  have grown : node.grow chart.forest = (node'.grow window.forest).shift offset :=
    congrArg Constituent.tree alike
  exact ⟨congrArg Constituent.category alike, _, read', by rw [read, grown]⟩

end Grammar
end Shift

theorem Agree.window (words : List String) (tags : List (List Category)) (start stop : Nat) :
    Agree start (stop - start) words ((words.take stop).drop start) tags ((tags.take stop).drop start) where
  words := by
    intro position within
    rw [List.getElem?_drop, Nat.add_comm start, List.getElem?_take_of_lt (by omega)]
  tags := by
    intro position within
    rw [List.getElem?_drop, Nat.add_comm start, List.getElem?_take_of_lt (by omega)]

theorem Grammar.window_exact (grammar : Grammar) (words : List String) (tags : List (List Category))
    (start stop : Nat) :
    ∃ chart window, grammar.chart words tags = .ok chart ∧
      grammar.chart ((words.take stop).drop start) ((tags.take stop).drop start) = .ok window ∧
      ∀ first last, start ≤ first → first ≤ last → last < stop → last < words.length →
        ∃ entries entries', chart.entriesAt first last = .ok entries ∧
          window.entriesAt (first - start) (last - start) = .ok entries' ∧
          List.Forall₂ (fun entry entry' => entry.2.category = entry'.2.category ∧
              ∃ tree, window.tree entry'.1 = .ok tree ∧ chart.tree entry.1 = .ok (tree.shift start))
            entries entries' := by
  obtain ⟨chart, run, filled⟩ := grammar.chart_filled words tags
  obtain ⟨window, run', filled'⟩ :=
    grammar.chart_filled ((words.take stop).drop start) ((tags.take stop).drop start)
  refine ⟨chart, window, run, run', fun first last after ordered before inside => ?_⟩
  obtain ⟨first, rfl⟩ := Nat.exists_eq_add_of_le' after
  obtain ⟨last, rfl⟩ := Nat.exists_eq_add_of_le' (Nat.le_trans after ordered)
  have bound' : last < ((words.take stop).drop start).length := by
    rw [List.length_drop, List.length_take]
    omega
  have agree := Agree.window words tags start stop
  have same : chart.constituents (first + start) (last + start) =
      (window.constituents first last).map (Constituent.shift start) :=
    filled.constituents_shift filled' agree ⟨by omega, by omega⟩ inside bound'
  rw [Nat.add_sub_cancel, Nat.add_sub_cancel]
  refine ⟨_, _, filled.sound.filed.entriesAt_eq ?_, filled'.sound.filed.entriesAt_eq ?_,
    filled.entries_shift filled' same⟩
  · rw [filled.size_eq]
    exact ⟨ordered, inside⟩
  · rw [filled'.size_eq]
    exact ⟨by omega, bound'⟩

end Concord
