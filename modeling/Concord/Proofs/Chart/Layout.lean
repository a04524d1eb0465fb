import Concord.Proofs.Chart.Additions
import Concord.Proofs.Chart.Filled
import Concord.Proofs.Chart.Rows
import Concord.Proofs.FirstOccurrences

namespace Concord

open Text

namespace Chart

def added (chart : Chart) (first last : Nat) : List Node :=
  chart.nodes.toList.filter fun node => node.first = first ∧ node.last = last

inductive Shows (chart : Chart) (first last : Nat) : String → Prop where
  | backward (turned : last < first) : Shows chart first last ""
  | blank (forward : first ≤ last) (none : chart.added first last = []) : Shows chart first last "-"
  | symbols {symbols : List String} (forward : first ≤ last) (some : chart.added first last ≠ [])
      (distinct : FirstOccurrences ((chart.added first last).map (·.category.symbol)) symbols) :
      Shows chart first last (",".intercalate symbols)

variable {chart : Chart} {margin first last place : Nat} {widths : List Nat} {header : List String}
  {rows : List (List String)} {name field : String} {fields : List String}

theorem covering_nodes (chart : Chart) (first last : Nat) :
    (chart.covering first last).map Prod.snd = chart.added first last := by
  rw [added, ← chart.entries_nodes, List.filter_map]
  rfl

theorem Filed.shows (filed : chart.Filed) (inside : last < chart.size) (read : chart.fieldAt first last = .ok field) :
    chart.Shows first last field := by
  unfold fieldAt at read
  by_cases backward : last < first
  · rw [if_pos backward] at read
    cases read
    exact .backward backward
  · have forward : first ≤ last := Nat.le_of_not_lt backward
    have symbols : (chart.covering first last).map (·.2.category.symbol) =
        (chart.added first last).map (·.category.symbol) := by
      rw [← covering_nodes, List.map_map]
      rfl
    rw [if_neg backward, filed.symbolsAt_eq ⟨forward, inside⟩, symbols, ok_bind] at read
    by_cases none : chart.added first last = []
    · rw [none] at read
      cases read
      exact .blank forward none
    · have some : ((chart.added first last).map (·.category.symbol)).eraseDups.isEmpty = false := by
        obtain ⟨node, others, listed⟩ := List.exists_cons_of_ne_nil none
        rw [listed, List.map_cons, List.eraseDups_cons]
        rfl
      rw [some] at read
      cases read
      exact .symbols forward none (firstOccurrences_eraseDups _)

theorem range_at {count item : Nat} (found : (List.range count)[place]? = some item) :
    item = place ∧ place < count := by
  obtain ⟨bound, rfl⟩ := List.getElem?_eq_some_iff.mp found
  rw [List.length_range] at bound
  exact ⟨List.getElem_range .., bound⟩

structure Laid (chart : Chart) (rows : List (List String)) : Prop where
  count : rows.length = chart.size
  even : ∀ row ∈ rows, row.length = chart.size
  shows : ∀ (first : Nat) (row : List String), rows[first]? = some row → ∀ (last : Nat) (field : String),
    row[last]? = some field → chart.Shows first last field

theorem Filed.laid (filed : chart.Filed) : ∃ rows, chart.Laid rows ∧
    ((List.range chart.size).mapM fun first => (List.range chart.size).mapM fun last => chart.fieldAt first last) =
      .ok rows := by
  obtain ⟨rows, read⟩ := mapM_succeeds.mpr fun first (_ : first ∈ List.range chart.size) => filed.row_succeeds first
  refine ⟨rows, ⟨by simpa using (mapM_eq_ok.mp read).length_eq.symm, ?_, ?_⟩, read⟩
  · intro row member
    obtain ⟨first, _, fields⟩ := mapM_source read member
    simpa using (mapM_eq_ok.mp fields).length_eq.symm
  · intro first row found last field there
    obtain ⟨_, here, fields⟩ := mapM_at read found
    obtain ⟨rfl, _⟩ := range_at here
    obtain ⟨_, within, shown⟩ := mapM_at fields there
    obtain ⟨rfl, bound⟩ := range_at within
    exact filed.shows bound shown

def Inline (chart : Chart) : Prop :=
  (∀ word ∈ chart.words.toList, '\n' ∉ word.toList) ∧ ∀ node ∈ chart.nodes.toList, '\n' ∉ node.category.symbol.toList

instance : Decidable chart.Inline := inferInstanceAs (Decidable (_ ∧ _))

theorem append_inline {front back : String} (before : '\n' ∉ front.toList) (behind : '\n' ∉ back.toList) :
    '\n' ∉ (front ++ back).toList := by
  rw [String.toList_append, List.mem_append]
  exact not_or.mpr ⟨before, behind⟩

theorem join_inline {texts : List String} (each : ∀ text ∈ texts, '\n' ∉ text.toList) :
    '\n' ∉ (String.join texts).toList := by
  rw [String.toList_join, List.mem_flatMap]
  rintro ⟨text, member, inside⟩
  exact each text member inside

theorem intercalate_inline {symbols : List String} (each : ∀ symbol ∈ symbols, '\n' ∉ symbol.toList) :
    '\n' ∉ (",".intercalate symbols).toList := by
  induction symbols with
  | nil => simp
  | cons symbol rest step =>
    obtain ⟨here, others⟩ := List.forall_mem_cons.mp each
    cases rest with
    | nil => simpa using here
    | cons next rest =>
      rw [String.intercalate_cons_cons]
      exact append_inline (append_inline here (by decide)) (step others)

theorem Shows.inline (shows : chart.Shows first last field) (inline : chart.Inline) : '\n' ∉ field.toList := by
  cases shows with
  | backward => simp
  | blank => simp
  | symbols forward some distinct =>
    refine intercalate_inline fun symbol member => ?_
    obtain ⟨node, covered, rfl⟩ := List.mem_map.mp ((distinct.mem_iff symbol).mp member)
    exact inline.2 node (List.mem_filter.mp covered).1

theorem padTo_inline {text : String} (inline : '\n' ∉ text.toList) (width : Nat) : '\n' ∉ (padTo width text).toList :=
  append_inline inline (by simp)

theorem rowText_inline (named : '\n' ∉ name.toList) (each : ∀ field ∈ fields, '\n' ∉ field.toList) :
    '\n' ∉ (rowText margin widths name fields).toList := by
  have inside : ∀ piece ∈ pieces widths fields, '\n' ∉ piece.toList := by
    intro piece member
    obtain ⟨place, found⟩ := List.mem_iff_getElem?.mp member
    rw [pieces, List.getElem?_zipWith] at found
    split at found
    · next width field _ here =>
      cases found
      exact append_inline (by decide) (padTo_inline (each field (List.mem_of_getElem? here)) width)
    · cases found
  exact append_inline (append_inline (padTo_inline named margin) (join_inline inside)) (by decide)

def tableLines (words : List String) (rows : List (List String)) : List String :=
  List.zipWith (rowText (longest words) (columnWidths words rows)) words rows

theorem tableLines_at {line : String} (found : (tableLines header rows)[place]? = some line) :
    ∃ word row, header[place]? = some word ∧ rows[place]? = some row ∧
      line = rowText (longest header) (columnWidths header rows) word row := by
  rw [tableLines, List.getElem?_zipWith] at found
  split at found
  · next word row here there => exact ⟨word, row, here, there, (Option.some.inj found).symm⟩
  · cases found

theorem Laid.inline (laid : chart.Laid rows) (inline : chart.Inline) :
    '\n' ∉ (rowText margin widths "" chart.words.toList).toList ∧
      ∀ line ∈ tableLines chart.words.toList rows, '\n' ∉ line.toList := by
  refine ⟨rowText_inline (by simp) inline.1, fun line member => ?_⟩
  obtain ⟨first, found⟩ := List.mem_iff_getElem?.mp member
  obtain ⟨word, row, named, there, rfl⟩ := tableLines_at found
  refine rowText_inline (inline.1 word (List.mem_of_getElem? named)) fun field inside => ?_
  obtain ⟨last, within⟩ := List.mem_iff_getElem?.mp inside
  exact (laid.shows first row there last field within).inline inline

-- Charts that can be come by: what is left after any additions, and those of the parser.
inductive Made : Chart → Prop where
  | additions (words : List String) (nodes : List Node) : Made ((Chart.empty words).afterAll nodes)
  | parsed {grammar : Grammar} {words : List String} {tags : List (List Category)} {chart : Chart}
      (parse : grammar.chart words tags = .ok chart) : Made chart

theorem Made.filed (made : chart.Made) : chart.Filed := by
  cases made with
  | additions words nodes => exact (Filed.empty words).afterAll nodes
  | @parsed grammar words tags _ parse =>
    obtain ⟨other, same, filled⟩ := grammar.chart_filled words tags
    obtain rfl := Except.ok.inj (same.symm.trans parse)
    exact filled.sound.filed

end Chart
end Concord
