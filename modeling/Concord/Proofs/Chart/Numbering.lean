import Concord.Proofs.Chart.Closing
import Concord.Proofs.Chart.Precedence

namespace Concord

theorem range_stretch {size : Nat} {before stretch after : List Nat}
    (whole : before ++ (stretch ++ after) = List.range size) :
    stretch = List.range' before.length stretch.length := by
  rw [List.range_eq_range', eq_comm, List.range'_eq_append_iff] at whole
  obtain ⟨skipped, _, rfl, rest⟩ := whole
  rw [eq_comm, List.range'_eq_append_iff] at rest
  obtain ⟨taken, _, rfl, _⟩ := rest
  simp

namespace Chart

variable {chart next : Chart} {node : Node} {nodes : List Node} {first last : Nat}

def cut? (chart : Chart) (node : Node) : Option Nat :=
  match node.origin with
  | .binary left _ => chart.nodes[left]?.map Node.last
  | _ => none

-- What is read or joined comes before what is raised, the shortest left parts first.
structure Layered (chart : Chart) (nodes : List Node) : Prop where
  layers : ∃ early late, nodes = early ++ late ∧ (∀ node ∈ early, ∀ child, node.origin ≠ .unary child) ∧
    ∀ node ∈ late, ∃ child, node.origin = .unary child
  cuts : (nodes.filterMap chart.cut?).Pairwise (· ≤ ·)

theorem Layered.congr (layered : chart.Layered nodes) (same : ∀ node ∈ nodes, next.cut? node = chart.cut? node) :
    next.Layered nodes where
  layers := layered.layers
  cuts := by
    rw [List.filterMap_congr same]
    exact layered.cuts

theorem Extends.entries_blank (grown : chart.Extends first last next) (blank : chart.covering first last = []) :
    next.entries = chart.entries ++ next.covering first last := by
  obtain ⟨fresh, joined, here⟩ := grown.entries
  have all : next.covering first last = fresh := by
    unfold covering at blank ⊢
    rw [joined, List.filter_append, blank, List.nil_append, List.filter_eq_self]
    intro entry member
    simpa using here entry member
  rw [joined, all]

theorem entries_places (chart : Chart) : chart.entries.map Prod.fst = List.range chart.nodes.size := by
  unfold entries
  rw [List.map_map, List.range_eq_range']
  exact (List.zipIdx_map_snd 0 _).trans (by rw [Array.length_toList])

end Chart

namespace Grammar

variable {grammar : Grammar} {words : List String} {tags : List (List Category)} {chart next : Chart}
  {node : Node} {first last index : Nat}

theorem Sound.cut?_eq (sound : grammar.Sound tags chart) (grown : chart.Extends first last next)
    (found : chart.nodes[index]? = some node) : next.cut? node = chart.cut? node := by
  have rests := sound.supported index node found
  unfold Supports at rests
  unfold Chart.cut?
  cases origin : node.origin with
  | word text => rfl
  | unary child => rfl
  | binary left right =>
    simp only [origin] at rests
    obtain ⟨_, _, leftPart, _, there, _⟩ := rests
    simp only [there, grown.node_at there]

theorem Sound.cut_inside {left right : Nat} (sound : grammar.Sound tags chart)
    (found : chart.nodes[index]? = some node) (origin : node.origin = .binary left right) :
    ∃ cut, chart.cut? node = some cut ∧ node.first ≤ cut ∧ cut < node.last := by
  have rests := sound.supported index node found
  unfold Supports at rests
  rw [origin] at rests
  obtain ⟨_, _, leftPart, _, there, _, _, _, _, forward, before, _⟩ := rests
  exact ⟨leftPart.last, by simp [Chart.cut?, origin, there], forward, before⟩

theorem joint_cut {cut : Cut} (grown : chart.Extends first last next)
    (member : (cut, node) ∈ grammar.joints chart.covering first last) : next.cut? node = some cut.stop := by
  obtain ⟨category, first', last', origin⟩ := node
  obtain ⟨joins, _, _⟩ := mem_joints.mp member
  cases joins with
  | intro inside lefts rights known joins =>
    obtain ⟨there, _, ends⟩ := Chart.mem_covering.mp (List.mem_of_getElem? lefts)
    simp [Chart.cut?, grown.node_at there, ends]

theorem gathered_layered (tags : List (List Category)) (grown : chart.Extends first last next) :
    (∀ node ∈ grammar.gathered tags chart first last, ∀ child, node.origin ≠ .unary child) ∧
      ((grammar.gathered tags chart first last).filterMap next.cut?).Pairwise (· ≤ ·) := by
  unfold gathered
  split
  · have read : ∀ node ∈ chart.readings tags first, ∃ text, node.origin = .word text := by
      intro node member
      obtain ⟨text, _, category, _, rfl⟩ := mem_readings_iff.mp member
      exact ⟨text, rfl⟩
    have uncut : (chart.readings tags first).filterMap next.cut? = [] := by
      apply List.filterMap_eq_nil_iff.mpr
      intro node member
      obtain ⟨text, origin⟩ := read node member
      simp [Chart.cut?, origin]
    rw [uncut]
    refine ⟨?_, .nil⟩
    intro node member child
    obtain ⟨text, origin⟩ := read node member
    simp [origin]
  · constructor
    · intro node member child
      obtain ⟨⟨cut, node⟩, joint, rfl⟩ := List.mem_map.mp member
      obtain ⟨category, first', last', origin⟩ := node
      cases (mem_joints.mp joint).1 with
      | intro inside lefts rights known joins => simp
    · have stops : ((grammar.joints chart.covering first last).map Prod.snd).filterMap next.cut? =
          (grammar.joints chart.covering first last).map fun joint => joint.1.stop := by
        rw [List.filterMap_map, ← List.filterMap_eq_map]
        exact List.filterMap_congr fun joint member => joint_cut grown member
      rw [stops, List.pairwise_map]
      refine (grammar.joints_ordered chart.covering first last).imp ?_
      rintro a b (same | before)
      · exact Nat.le_of_eq (congrArg Cut.stop same.symm)
      · unfold Cut.Before at before
        omega

theorem Sound.fillSpan_layered (sound : grammar.Sound tags chart) (inside : first ≤ last ∧ last < chart.size)
    (blank : chart.covering first last = []) (run : grammar.fillSpan tags chart first last = .ok next)
    (grown : chart.Extends first last next) : next.Layered (next.nodesOver first last) := by
  obtain ⟨found, seeded, stages⟩ := sound.fillSpan_stages inside run
  obtain rfl := Except.ok.inj ((gather_eq sound.filed inside.2).symm.trans stages.gathered)
  obtain ⟨flat, ordered⟩ := grammar.gathered_layered tags grown
  obtain ⟨kept, same, order⟩ :=
    FirstWins.keepAll_append Node.category [] (grammar.gathered tags chart first last)
  have vacant : chart.nodesOver first last = [] := by rw [Chart.nodesOver, blank, List.map_nil]
  have seeds := stages.seeds
  rw [vacant, same, List.nil_append] at seeds
  obtain ⟨more, joined, raised⟩ := stages.rises.raised
  have uncut : more.filterMap next.cut? = [] := by
    apply List.filterMap_eq_nil_iff.mpr
    intro node member
    obtain ⟨child, origin⟩ := raised node member
    simp [Chart.cut?, origin]
  rw [joined, seeds]
  refine ⟨⟨kept, more, rfl, fun node member => flat node (order.subset member), raised⟩, ?_⟩
  rw [List.filterMap_append, uncut, List.append_nil]
  exact ordered.sublist (order.filterMap _)

-- Between two spans: the cells of the spans that are done make up all the entries, one after the other.
structure Numbers (done : List (Nat × Nat)) (chart : Chart) : Prop where
  listed : (done.flatMap fun span => chart.covering span.1 span.2) = chart.entries
  layered : ∀ span ∈ done, chart.Layered (chart.nodesOver span.1 span.2)

theorem Numbers.step {done rest : List (Nat × Nat)} {span : Nat × Nat} (numbers : Numbers done chart)
    (order : done ++ span :: rest = Chart.spansByLength words.length)
    (progress : grammar.Progress words tags done chart)
    (run : grammar.fillSpan tags chart span.1 span.2 = .ok next) (grown : chart.Extends span.1 span.2 next) :
    Numbers (done ++ [span]) next := by
  obtain ⟨within, _, fresh⟩ := next_span order
  have blank := progress.blank span fresh
  have old : ∀ other ∈ done, next.covering other.1 other.2 = chart.covering other.1 other.2 := by
    intro other member
    refine grown.covering_eq fun same => fresh ?_
    rwa [← show other = span from Prod.ext same.1 same.2]
  constructor
  · rw [List.flatMap_append, List.flatMap_congr old, numbers.listed, grown.entries_blank blank]
    simp
  · intro other listed
    rcases List.mem_append.mp listed with before | now
    · have kept := numbers.layered other before
      rw [Chart.nodesOver, old other before]
      refine kept.congr fun node member => ?_
      obtain ⟨⟨index, node⟩, covered, rfl⟩ := List.mem_map.mp member
      exact progress.sound.cut?_eq grown (Chart.mem_covering.mp covered).1
    · cases List.mem_singleton.mp now
      exact progress.sound.fillSpan_layered (by rwa [progress.size_eq]) blank run grown

theorem Numbers.run {spans : List (Nat × Nat)} {span : Nat × Nat} (numbers : Numbers spans chart)
    (member : span ∈ spans) : ∃ start, (chart.covering span.1 span.2).map Prod.fst =
      List.range' start (chart.covering span.1 span.2).length := by
  obtain ⟨before, after, rfl⟩ := List.append_of_mem member
  have places := chart.entries_places
  rw [← numbers.listed, List.flatMap_append, List.flatMap_cons, List.map_append, List.map_append] at places
  have stretch := range_stretch places
  rw [List.length_map, List.length_map] at stretch
  exact ⟨_, stretch⟩

theorem arena_in_order (grammar : Grammar) (words : List String) (tags : List (List Category)) :
    ∃ chart cells, grammar.chart words tags = .ok chart ∧
      (Chart.spansByLength words.length).mapM (fun span => chart.cell span.1 span.2) = .ok cells ∧
      cells.flatMap Array.toList = List.range chart.nodes.size ∧
      ∀ first last, first ≤ last → last < words.length →
        ∃ cell nodes start, chart.cell first last = .ok cell ∧ cell.toList = List.range' start cell.size ∧
          chart.nodesAt first last = .ok nodes ∧ chart.Layered nodes ∧
          ∀ node ∈ nodes, ∀ left right, node.origin = .binary left right →
            ∃ cut, chart.cut? node = some cut ∧ first ≤ cut ∧ cut < last := by
  obtain ⟨chart, run, filled, numbers⟩ := grammar.chart_keeping words tags Numbers
    (fun done rest span chart next order progress kept run grown => kept.step order progress run grown)
    ⟨by simp [Chart.entries, Chart.empty], by simp⟩
  have size := filled.size_eq
  have filed := filled.sound.filed
  refine ⟨chart, _, run, mapM_ok (fun span member => filed.cell_eq ?_), ?_, ?_⟩
  · rw [size]
    exact Chart.mem_spansByLength.mp member
  · rw [List.flatMap_map, ← chart.entries_places, ← numbers.listed, List.map_flatMap]
  · intro first last forward inside
    have member : (first, last) ∈ Chart.spansByLength words.length :=
      Chart.mem_spansByLength.mpr ⟨forward, inside⟩
    have within : first ≤ last ∧ last < chart.size := ⟨forward, by rwa [size]⟩
    obtain ⟨start, stretch⟩ := numbers.run member
    refine ⟨_, _, start, filed.cell_eq within, by simpa using stretch, filed.nodesAt_eq within,
      numbers.layered _ member, ?_⟩
    intro node listed left right origin
    obtain ⟨⟨index, node⟩, covered, rfl⟩ := List.mem_map.mp listed
    obtain ⟨found, rfl, rfl⟩ := Chart.mem_covering.mp covered
    exact filled.sound.cut_inside found origin

end Grammar
end Concord
