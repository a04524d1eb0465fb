import Concord.Proofs.Chart.Equations

namespace Concord.Grammar

variable {grammar : Grammar} {tags : List (List Category)} {chart next : Chart} {node : Node}
  {first last : Nat}

-- What every step of filling keeps.
structure Sound (grammar : Grammar) (tags : List (List Category)) (chart : Chart) : Prop where
  filed : chart.Filed
  supported : ∀ (index : Nat) (node : Node), chart.nodes[index]? = some node →
    grammar.Supports tags chart index node

theorem Sound.rooted (sound : grammar.Sound tags chart) : chart.Rooted :=
  fun index node found => (sound.supported index node found).rooted

theorem Sound.empty (words : List String) : grammar.Sound tags (.empty words) where
  filed := .empty words
  supported := by
    intro index node found
    simp [Chart.empty] at found

theorem Sound.put (sound : grammar.Sound tags chart) (inside : first ≤ last ∧ last < chart.size)
    (due : grammar.Due tags chart first last node) : grammar.Sound tags (chart.put node) where
  filed := sound.filed.put (by rw [Chart.Inside, due.here.1, due.here.2]; exact inside)
  supported := by
    have grown : chart.Extends first last (chart.put node) := .put due.here
    intro index other found
    by_cases old : chart.nodes[index]? = some other
    · exact (sound.supported index other old).mono grown (Nat.le_refl _)
    · unfold Chart.put at found grown ⊢
      split at found
      · exact absurd found old
      · rename_i fresh
        rw [if_neg fresh] at grown ⊢
        rw [Chart.push, Array.getElem?_push] at found
        split at found
        · rename_i top
          cases Option.some.inj found
          exact due.rests.mono grown (by omega)
        · exact absurd found old

structure Reaches (grammar : Grammar) (tags : List (List Category)) (first last : Nat)
    (chart : Chart) (cell : List Constituent) (next : Chart) : Prop where
  sound : grammar.Sound tags next
  grown : chart.Extends first last next
  cell_eq : next.constituents first last = cell

theorem Sound.reaches_putAll (sound : grammar.Sound tags chart)
    (inside : first ≤ last ∧ last < chart.size) {nodes : List Node}
    (due : ∀ node ∈ nodes, grammar.Due tags chart first last node) :
    grammar.Reaches tags first last chart
      (FirstWins.keepAll Constituent.category (chart.constituents first last)
        (nodes.map (·.constituent chart.forest)))
      (nodes.foldl Chart.put chart) := by
  induction nodes generalizing chart with
  | nil => exact ⟨sound, .refl, rfl⟩
  | cons node rest step =>
    have head := due node (by simp)
    obtain ⟨rfl, rfl⟩ := head.here
    have grown : chart.Extends node.first node.last (chart.put node) := .put ⟨rfl, rfl⟩
    have later := step (sound.put inside head) (by rwa [Chart.size_put]) fun other member =>
      (due other (by simp [member])).mono grown
    have planted : rest.map (·.constituent (chart.put node).forest) =
        rest.map (·.constituent chart.forest) := by
      refine List.map_congr_left fun other member => ?_
      exact congrArg _ (grown.grow_eq (due other (by simp [member])).rests.rooted)
    refine ⟨later.sound, grown.trans later.grown, later.cell_eq.trans ?_⟩
    rw [planted, Chart.constituents_put sound.rooted head.rests.rooted]
    rfl

theorem Sound.addAll_eq (sound : grammar.Sound tags chart) (inside : first ≤ last ∧ last < chart.size)
    {nodes : List Node} (due : ∀ node ∈ nodes, grammar.Due tags chart first last node) :
    chart.addAll nodes = .ok (nodes.foldl Chart.put chart) := by
  apply sound.filed.addAll_eq
  intro node member
  have here := (due node member).here
  rw [Chart.Inside, here.1, here.2]
  exact inside

theorem Sound.addAll (sound : grammar.Sound tags chart) (inside : first ≤ last ∧ last < chart.size)
    {nodes : List Node} (due : ∀ node ∈ nodes, grammar.Due tags chart first last node) :
    ∃ next, chart.addAll nodes = .ok next ∧ grammar.Reaches tags first last chart
      (FirstWins.keepAll Constituent.category (chart.constituents first last)
        (nodes.map (·.constituent chart.forest))) next :=
  ⟨_, sound.addAll_eq inside due, sound.reaches_putAll inside due⟩

theorem Sound.closeFrom (sound : grammar.Sound tags chart) (inside : first ≤ last ∧ last < chart.size)
    (fuel position : Nat) :
    ∃ next, grammar.closeFrom first last fuel position chart = .ok next ∧
      grammar.Reaches tags first last chart
        (grammar.closing first last fuel position (chart.constituents first last)) next := by
  induction fuel generalizing position chart with
  | zero => exact ⟨chart, rfl, sound, .refl, rfl⟩
  | succ fuel step =>
    unfold Grammar.closeFrom closing FirstWins.closeFrom
    rw [sound.filed.cell_eq inside]
    cases found : (chart.covering first last)[position]? with
    | none =>
      refine ⟨chart, by simp [found], sound, .refl, ?_⟩
      simp [Chart.constituents, found]
    | some entry =>
      obtain ⟨child, part⟩ := entry
      have listed := List.mem_of_getElem? found
      have there := (Chart.mem_covering.mp listed).1
      obtain ⟨raised, added, reached⟩ := sound.addAll inside fun node member =>
        (due_parent listed member : grammar.Due tags chart first last node)
      rw [constituent_parents sound.rooted there] at reached
      obtain ⟨next, closed, finished⟩ := step reached.sound (by rwa [reached.grown.size_eq]) (position + 1)
      refine ⟨next, ?_, finished.sound, reached.grown.trans finished.grown, ?_⟩
      · simpa [found, Chart.entry_node there, added] using closed
      · rw [finished.cell_eq, reached.cell_eq]
        simp [Chart.constituents, found, closing]

theorem Sound.closeUnary (sound : grammar.Sound tags chart) (inside : first ≤ last ∧ last < chart.size) :
    ∃ next, grammar.closeUnary chart first last = .ok next ∧
      grammar.Reaches tags first last chart
        (grammar.closing first last
          ((chart.constituents first last).length * (1 + grammar.rules.length)) 0
          (chart.constituents first last)) next := by
  unfold Grammar.closeUnary
  rw [sound.filed.cell_eq inside]
  obtain ⟨next, closed, reached⟩ := sound.closeFrom inside
    ((chart.constituents first last).length * (1 + grammar.rules.length)) 0
  refine ⟨next, ?_, reached⟩
  simpa [Chart.constituents] using closed

theorem combinations_eq (filed : chart.Filed) (inside : last < chart.size) :
    grammar.combinations chart first last = .ok ((List.range (last - first)).flatMap fun extra =>
      grammar.combineCells first last (chart.covering first (first + extra))
        (chart.covering (first + extra + 1) last)) := by
  have each : ∀ extra ∈ List.range (last - first), (do
      let lefts ← chart.entriesAt first (first + extra)
      let rights ← chart.entriesAt (first + extra + 1) last
      return grammar.combineCells first last lefts rights : Except ChartError (List Node)) =
        .ok (grammar.combineCells first last (chart.covering first (first + extra))
          (chart.covering (first + extra + 1) last)) := by
    intro extra member
    have short : extra < last - first := List.mem_range.mp member
    rw [filed.entriesAt_eq (by omega), filed.entriesAt_eq (by omega)]
    rfl
  rw [Grammar.combinations, mapM_ok each, List.flatMap_def]
  rfl

theorem Sound.combinations (sound : grammar.Sound tags chart) (inside : first < last ∧ last < chart.size) :
    ∃ found, grammar.combinations chart first last = .ok found ∧
      (∀ node ∈ found, grammar.Due tags chart first last node) ∧
      found.map (·.constituent chart.forest) =
        (List.range (last - first)).flatMap fun extra => grammar.join first last
          (chart.constituents first (first + extra)) (chart.constituents (first + extra + 1) last) := by
  refine ⟨_, combinations_eq sound.filed inside.2, ?_, ?_⟩
  · intro node member
    obtain ⟨extra, range, member⟩ := List.mem_flatMap.mp member
    have short : extra < last - first := List.mem_range.mp range
    exact due_combination (by omega) member
  · rw [List.map_flatMap]
    exact List.flatMap_congr fun extra _ => constituent_combinations sound.rooted

def gather (grammar : Grammar) (tags : List (List Category)) (chart : Chart) (first last : Nat) :
    Except ChartError (List Node) :=
  if first = last then .ok (chart.readings tags first) else grammar.combinations chart first last

theorem fillSpan_eq : grammar.fillSpan tags chart first last =
    grammar.gather tags chart first last >>= fun found =>
      chart.addAll found >>= fun added => grammar.closeUnary added first last := by
  unfold fillSpan gather
  by_cases single : first = last
  · rw [if_pos single, if_pos single]
  · rw [if_neg single, if_neg single]

theorem Sound.gather (sound : grammar.Sound tags chart) (inside : first ≤ last ∧ last < chart.size) :
    ∃ found, grammar.gather tags chart first last = .ok found ∧
      (∀ node ∈ found, grammar.Due tags chart first last node) ∧
      found.map (·.constituent chart.forest) =
        grammar.seeds chart.words.toList tags chart.constituents first last := by
  unfold Grammar.gather seeds
  by_cases single : first = last
  · subst single
    rw [if_pos rfl, if_pos rfl]
    exact ⟨_, rfl, fun node member => due_reading member, constituent_reading⟩
  · rw [if_neg single, if_neg single]
    exact sound.combinations (by omega)

theorem Sound.fillSpan (sound : grammar.Sound tags chart) (inside : first ≤ last ∧ last < chart.size)
    (blank : chart.covering first last = []) :
    ∃ next, grammar.fillSpan tags chart first last = .ok next ∧
      grammar.Reaches tags first last chart
        (grammar.settle first last
          (grammar.seeds chart.words.toList tags chart.constituents first last)) next := by
  obtain ⟨found, collected, due, planted⟩ := sound.gather inside
  obtain ⟨added, adding, reached⟩ := sound.addAll inside due
  have cell : added.constituents first last = FirstWins.keepAll Constituent.category []
      (grammar.seeds chart.words.toList tags chart.constituents first last) := by
    rw [reached.cell_eq, planted, Chart.constituents, blank]
    rfl
  obtain ⟨next, closing, finished⟩ := reached.sound.closeUnary (by rwa [reached.grown.size_eq])
  refine ⟨next, ?_, finished.sound, reached.grown.trans finished.grown, ?_⟩
  · rw [fillSpan_eq, collected]
    simpa [adding] using closing
  · rw [finished.cell_eq, cell]
    rfl

end Concord.Grammar
