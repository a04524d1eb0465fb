import Concord.Proofs.Chart.Filling

namespace Concord

namespace Chart

def Before (a b : Nat × Nat) : Prop :=
  a.2 - a.1 < b.2 - b.1 ∨ a.2 - a.1 = b.2 - b.1 ∧ a.1 < b.1

theorem mem_spansByLength {size first last : Nat} :
    (first, last) ∈ spansByLength size ↔ first ≤ last ∧ last < size := by
  unfold spansByLength
  rw [List.mem_flatMap]
  constructor
  · rintro ⟨extra, short, member⟩
    obtain ⟨start, fits, same⟩ := List.mem_map.mp member
    have := List.mem_range.mp short
    have := List.mem_range.mp fits
    cases same
    omega
  · intro inside
    refine ⟨last - first, List.mem_range.mpr (by omega), List.mem_map.mpr ⟨first, List.mem_range.mpr ?_, ?_⟩⟩
    · omega
    · rw [Nat.add_sub_cancel' inside.1]

theorem spansByLength_pairwise (size : Nat) : (spansByLength size).Pairwise Before := by
  unfold spansByLength
  rw [List.pairwise_flatMap]
  constructor
  · intro extra _
    rw [List.pairwise_map]
    refine List.pairwise_lt_range.imp fun order => ?_
    exact Or.inr ⟨by omega, order⟩
  · refine List.pairwise_lt_range.imp fun order => ?_
    intro a memberA b memberB
    obtain ⟨start, _, rfl⟩ := List.mem_map.mp memberA
    obtain ⟨start', _, rfl⟩ := List.mem_map.mp memberB
    exact Or.inl (by omega)

end Chart

namespace Grammar

variable {grammar : Grammar} {words : List String} {tags : List (List Category)} {chart : Chart}

theorem seeds_congr {cells cells' : Nat → Nat → List Constituent} {first last : Nat}
    (same : ∀ first' last', first ≤ first' → first' ≤ last' → last' ≤ last →
      last' - first' < last - first → cells first' last' = cells' first' last') :
    grammar.seeds words tags cells first last = grammar.seeds words tags cells' first last := by
  unfold seeds
  split
  · rfl
  · refine List.flatMap_congr fun extra member => ?_
    have short : extra < last - first := List.mem_range.mp member
    rw [same first (first + extra) (by omega) (by omega) (by omega) (by omega),
      same (first + extra + 1) last (by omega) (by omega) (by omega) (by omega)]

def Settled (grammar : Grammar) (words : List String) (tags : List (List Category)) (chart : Chart)
    (first last : Nat) : Prop :=
  chart.constituents first last =
    grammar.settle first last (grammar.seeds words tags chart.constituents first last)

-- Between two spans: those that are done are settled, the others are empty.
structure Progress (grammar : Grammar) (words : List String) (tags : List (List Category))
    (done : List (Nat × Nat)) (chart : Chart) : Prop where
  sound : grammar.Sound tags chart
  words_eq : chart.words.toList = words
  settled : ∀ span ∈ done, grammar.Settled words tags chart span.1 span.2
  blank : ∀ span, span ∉ done → chart.covering span.1 span.2 = []

theorem Progress.start : grammar.Progress words tags [] (.empty words) where
  sound := .empty words
  words_eq := by simp [Chart.empty]
  settled := by simp
  blank := by simp [Chart.empty, Chart.covering, Chart.entries]

theorem Settled.extend {next : Chart} {first last first' last' : Nat}
    (settled : grammar.Settled words tags chart first' last') (rooted : chart.Rooted)
    (grown : chart.Extends first last next) (before : Chart.Before (first', last') (first, last)) :
    grammar.Settled words tags next first' last' := by
  unfold Chart.Before at before
  unfold Settled at settled ⊢
  rw [grown.constituents_eq rooted (by omega), settled]
  congr 1
  refine seeds_congr fun start stop _ _ _ shorter => ?_
  exact (grown.constituents_eq rooted (by omega)).symm

theorem next_span {size : Nat} {done rest : List (Nat × Nat)} {span : Nat × Nat}
    (order : done ++ span :: rest = Chart.spansByLength size) :
    (span.1 ≤ span.2 ∧ span.2 < size) ∧ (∀ other ∈ done, Chart.Before other span) ∧ span ∉ done := by
  have ordered := Chart.spansByLength_pairwise size
  rw [← order, List.pairwise_append] at ordered
  have early : ∀ other ∈ done, Chart.Before other span :=
    fun other member => ordered.2.2 other member span (by simp)
  refine ⟨?_, early, ?_⟩
  · rw [← Chart.mem_spansByLength, ← order]
    simp
  · intro member
    have := early span member
    simp [Chart.Before] at this

theorem Progress.size_eq {done : List (Nat × Nat)} (progress : grammar.Progress words tags done chart) :
    chart.size = words.length := by
  rw [← progress.words_eq]
  simp [Chart.size]

theorem Progress.step {done rest : List (Nat × Nat)} {span : Nat × Nat}
    (progress : grammar.Progress words tags done chart)
    (order : done ++ span :: rest = Chart.spansByLength words.length) :
    ∃ next, grammar.fillSpan tags chart span.1 span.2 = .ok next ∧ chart.Extends span.1 span.2 next ∧
      grammar.Progress words tags (done ++ [span]) next := by
  obtain ⟨first, last⟩ := span
  obtain ⟨within, early, fresh⟩ := next_span order
  obtain ⟨next, filled, reached⟩ :=
    progress.sound.fillSpan (by rwa [progress.size_eq]) (progress.blank _ fresh)
  have rooted := progress.sound.rooted
  refine ⟨next, filled, reached.grown, reached.sound, by rw [reached.grown.words, progress.words_eq], ?_, ?_⟩
  · intro other member
    rcases List.mem_append.mp member with old | new
    · exact (progress.settled other old).extend rooted reached.grown (early other old)
    · cases List.mem_singleton.mp new
      unfold Settled
      rw [reached.cell_eq, progress.words_eq]
      congr 1
      refine seeds_congr fun start stop _ _ _ shorter => ?_
      exact (reached.grown.constituents_eq rooted (by omega)).symm
  · intro other absent
    have apart : other ∉ done ∧ other ≠ (first, last) := by simpa using absent
    rw [reached.grown.covering_eq fun same => apart.2 (Prod.ext same.1 same.2)]
    exact progress.blank other apart.1

theorem Progress.run_keeping {keeps : List (Nat × Nat) → Chart → Prop}
    (each : ∀ (done rest : List (Nat × Nat)) (span : Nat × Nat) (chart next : Chart),
      done ++ span :: rest = Chart.spansByLength words.length →
      grammar.Progress words tags done chart → keeps done chart →
      grammar.fillSpan tags chart span.1 span.2 = .ok next → chart.Extends span.1 span.2 next →
      keeps (done ++ [span]) next)
    {done rest : List (Nat × Nat)} (progress : grammar.Progress words tags done chart)
    (kept : keeps done chart) (order : done ++ rest = Chart.spansByLength words.length) :
    ∃ next, rest.foldlM (fun chart (first, last) => grammar.fillSpan tags chart first last) chart = .ok next ∧
      grammar.Progress words tags (done ++ rest) next ∧ keeps (done ++ rest) next := by
  induction rest generalizing done chart with
  | nil => exact ⟨chart, rfl, by rwa [List.append_nil], by rwa [List.append_nil]⟩
  | cons span rest step =>
    obtain ⟨middle, filled, grown, progress'⟩ := progress.step order
    have kept' := each done rest span chart middle order progress kept filled grown
    obtain ⟨next, finished, whole⟩ := step progress' kept' (by rw [List.append_assoc]; exact order)
    refine ⟨next, ?_, by rwa [List.append_assoc] at whole⟩
    rw [List.foldlM_cons]
    change (grammar.fillSpan tags chart span.1 span.2 >>= _) = _
    rw [filled]
    exact finished

-- No span of the sentence is left out, and each is settled from the shorter ones inside it.
structure Filled (grammar : Grammar) (words : List String) (tags : List (List Category))
    (chart : Chart) : Prop where
  sound : grammar.Sound tags chart
  words_eq : chart.words.toList = words
  settled : ∀ first last, first ≤ last ∧ last < words.length →
    grammar.Settled words tags chart first last

theorem Filled.size_eq (filled : grammar.Filled words tags chart) : chart.size = words.length := by
  rw [← filled.words_eq]
  simp [Chart.size]

theorem chart_keeping (grammar : Grammar) (words : List String) (tags : List (List Category))
    (keeps : List (Nat × Nat) → Chart → Prop)
    (each : ∀ (done rest : List (Nat × Nat)) (span : Nat × Nat) (chart next : Chart),
      done ++ span :: rest = Chart.spansByLength words.length →
      grammar.Progress words tags done chart → keeps done chart →
      grammar.fillSpan tags chart span.1 span.2 = .ok next → chart.Extends span.1 span.2 next →
      keeps (done ++ [span]) next)
    (blank : keeps [] (.empty words)) :
    ∃ chart, grammar.chart words tags = .ok chart ∧ grammar.Filled words tags chart ∧
      keeps (Chart.spansByLength words.length) chart := by
  have start : grammar.Progress words tags [] (.empty words) := .start
  obtain ⟨chart, run, progress, kept⟩ := start.run_keeping each blank (List.nil_append _)
  refine ⟨chart, run, ⟨progress.sound, progress.words_eq, ?_⟩, kept⟩
  intro first last inside
  exact progress.settled (first, last) (Chart.mem_spansByLength.mpr inside)

theorem chart_filled (grammar : Grammar) (words : List String) (tags : List (List Category)) :
    ∃ chart, grammar.chart words tags = .ok chart ∧ grammar.Filled words tags chart := by
  obtain ⟨chart, run, filled, _⟩ := grammar.chart_keeping words tags (fun _ _ => True)
    (by intros; trivial) trivial
  exact ⟨chart, run, filled⟩

-- Parts stand before what they are parts of, so every node has a tree, whatever circles the unary rules
-- run in.
theorem nodes_supported (grammar : Grammar) (words : List String) (tags : List (List Category)) :
    ∃ chart, grammar.chart words tags = .ok chart ∧ chart.words.toList = words ∧
      ∀ (index : Nat) (node : Node), chart.nodes[index]? = some node →
        grammar.Supports tags chart index node ∧ ∃ tree, chart.tree index = .ok tree := by
  obtain ⟨chart, run, filled⟩ := chart_filled grammar words tags
  refine ⟨chart, run, filled.words_eq, fun index node found => ?_⟩
  exact ⟨filled.sound.supported index node found, _, filled.sound.rooted.tree_eq found⟩

end Grammar
end Concord
