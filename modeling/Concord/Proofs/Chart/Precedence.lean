import Concord.Proofs.Chart.Closing
import Concord.Proofs.Chart.Filled

namespace Concord

-- A choice of two nodes that meet inside a span: where the left one ends, and the positions of the
-- two in their cells.
structure Cut where
  stop : Nat
  left : Nat
  right : Nat

-- The left end varies slowest, the right node fastest.
def Cut.Before (a b : Cut) : Prop :=
  a.stop < b.stop ∨ a.stop = b.stop ∧ (a.left < b.left ∨ a.left = b.left ∧ a.right < b.right)

namespace Grammar

variable {grammar : Grammar} {words : List String} {tags : List (List Category)} {chart next : Chart}
  {cells cells' : Nat → Nat → List (Nat × Node)} {first last : Nat} {node : Node}

def IsReading (tags : List (List Category)) (first last : Nat) (category : Category) : Prop :=
  first = last ∧ category ∈ tags.getD first []

inductive JoinsAt (grammar : Grammar) (cells : Nat → Nat → List (Nat × Node)) (first last : Nat) :
    Cut → Origin → Category → Prop where
  | intro {cut : Cut} {l r : Nat} {left right : Node} {rule : Rule} {whole : Category}
      (inside : first ≤ cut.stop ∧ cut.stop < last)
      (lefts : (cells first cut.stop)[cut.left]? = some (l, left))
      (rights : (cells (cut.stop + 1) last)[cut.right]? = some (r, right))
      (known : rule ∈ grammar.rules) (joins : rule.Joins left.category right.category whole) :
      JoinsAt grammar cells first last cut (.binary l r) whole

inductive RaisesAt (grammar : Grammar) (cells : Nat → Nat → List (Nat × Node)) (first last : Nat) :
    Nat → Origin → Category → Prop where
  | intro {position child : Nat} {part : Node} {rule : Rule} {whole : Category}
      (there : (cells first last)[position]? = some (child, part))
      (known : rule ∈ grammar.rules) (raises : rule.Raises part.category whole) :
      RaisesAt grammar cells first last position (.unary child) whole

-- The node that is kept for a category over a span. Readings come before cuts and cuts before unary
-- rules, and of several cuts, or several nodes to be raised, the first one counts.
structure FirstFound (grammar : Grammar) (words : List String) (tags : List (List Category))
    (cells : Nat → Nat → List (Nat × Node)) (first last : Nat) (node : Node) : Prop where
  reading : IsReading tags first last node.category →
    ∃ text, words[first]? = some text ∧ node.origin = .word text
  joined : ¬ IsReading tags first last node.category →
    (∃ cut origin, grammar.JoinsAt cells first last cut origin node.category) →
    ∃ cut, grammar.JoinsAt cells first last cut node.origin node.category ∧
      ∀ cut' origin, grammar.JoinsAt cells first last cut' origin node.category →
        cut' = cut ∨ cut.Before cut'
  raised : ¬ IsReading tags first last node.category →
    (¬ ∃ cut origin, grammar.JoinsAt cells first last cut origin node.category) →
    ∃ position, grammar.RaisesAt cells first last position node.origin node.category ∧
      ∀ position' origin, grammar.RaisesAt cells first last position' origin node.category →
        position ≤ position'

section Cells

variable {cut : Cut} {origin : Origin} {category : Category} {position : Nat}

theorem JoinsAt.congr (joins : grammar.JoinsAt cells first last cut origin category)
    (same : ∀ first' last', last' - first' < last - first → cells' first' last' = cells first' last') :
    grammar.JoinsAt cells' first last cut origin category := by
  cases joins with
  | intro inside lefts rights known joins =>
    rw [← same first cut.stop (by omega)] at lefts
    rw [← same (cut.stop + 1) last (by omega)] at rights
    exact .intro inside lefts rights known joins

theorem RaisesAt.congr (raises : grammar.RaisesAt cells first last position origin category)
    (same : cells' first last = cells first last) :
    grammar.RaisesAt cells' first last position origin category := by
  cases raises with
  | intro there known raises =>
    rw [← same] at there
    exact .intro there known raises

theorem FirstFound.congr (found : grammar.FirstFound words tags cells first last node)
    (same : ∀ first' last', last' - first' < last - first ∨ first' = first ∧ last' = last →
      cells' first' last' = cells first' last') :
    grammar.FirstFound words tags cells' first last node := by
  have shorter : ∀ first' last', last' - first' < last - first →
      cells' first' last' = cells first' last' := fun first' last' less => same first' last' (Or.inl less)
  have here : cells' first last = cells first last := same first last (Or.inr ⟨rfl, rfl⟩)
  have shorter' : ∀ first' last', last' - first' < last - first →
      cells first' last' = cells' first' last' := fun first' last' less => (shorter first' last' less).symm
  refine ⟨found.reading, ?_, ?_⟩
  · rintro fresh ⟨cut, origin, joins⟩
    obtain ⟨best, made, least⟩ := found.joined fresh ⟨cut, origin, joins.congr shorter'⟩
    exact ⟨best, made.congr shorter, fun cut' origin' other => least cut' origin' (other.congr shorter')⟩
  · intro fresh apart
    obtain ⟨source, made, least⟩ := found.raised fresh fun ⟨cut, origin, joins⟩ =>
      apart ⟨cut, origin, joins.congr shorter⟩
    exact ⟨source, made.congr here, fun position' origin' other => least position' origin' (other.congr here.symm)⟩

end Cells

section Joints

def joints (grammar : Grammar) (cells : Nat → Nat → List (Nat × Node)) (first last : Nat) :
    List (Cut × Node) :=
  (List.range (last - first)).flatMap fun extra =>
    (cells first (first + extra)).zipIdx.flatMap fun ((l, left), i) =>
      (cells (first + extra + 1) last).zipIdx.flatMap fun ((r, right), j) =>
        (grammar.combine left.category right.category).map fun (rule, features) =>
          (⟨first + extra, i, j⟩, ⟨⟨rule.symbol, features⟩, first, last, .binary l r⟩)

theorem flatMap_zipIdx {α β : Type} (items : List α) (f : α → List β) :
    (items.zipIdx.flatMap fun entry => f entry.1) = items.flatMap f := by
  rw [← List.flatMap_map Prod.fst f, List.zipIdx_map_fst]

theorem joints_nodes (grammar : Grammar) (cells : Nat → Nat → List (Nat × Node)) (first last : Nat) :
    (grammar.joints cells first last).map Prod.snd = (List.range (last - first)).flatMap fun extra =>
      grammar.combineCells first last (cells first (first + extra)) (cells (first + extra + 1) last) := by
  unfold joints combineCells
  rw [List.map_flatMap]
  refine List.flatMap_congr fun extra _ => ?_
  rw [List.map_flatMap]
  refine Eq.trans (List.flatMap_congr fun left _ => ?_) (flatMap_zipIdx _ _)
  rw [List.map_flatMap]
  refine Eq.trans (List.flatMap_congr fun right _ => ?_) (flatMap_zipIdx _ _)
  rw [List.map_map]
  rfl

theorem joints_ordered (grammar : Grammar) (cells : Nat → Nat → List (Nat × Node)) (first last : Nat) :
    (grammar.joints cells first last).Pairwise fun a b => b.1 = a.1 ∨ a.1.Before b.1 := by
  unfold joints
  refine List.pairwise_flatMap.mpr ⟨?_, List.pairwise_lt_range.imp ?_⟩
  · intro extra _
    refine List.pairwise_flatMap.mpr ⟨?_, (zipIdx_ascending _).imp ?_⟩
    · intro left _
      refine List.pairwise_flatMap.mpr ⟨?_, (zipIdx_ascending _).imp ?_⟩
      · intro right _
        rw [List.pairwise_map]
        exact List.pairwise_of_forall fun _ _ => Or.inl rfl
      · intro right right' ascends joint member joint' member'
        obtain ⟨_, _, rfl⟩ := List.mem_map.mp member
        obtain ⟨_, _, rfl⟩ := List.mem_map.mp member'
        exact Or.inr (Or.inr ⟨rfl, Or.inr ⟨rfl, ascends⟩⟩)
    · intro left left' ascends joint member joint' member'
      obtain ⟨_, _, member⟩ := List.mem_flatMap.mp member
      obtain ⟨_, _, member'⟩ := List.mem_flatMap.mp member'
      obtain ⟨_, _, rfl⟩ := List.mem_map.mp member
      obtain ⟨_, _, rfl⟩ := List.mem_map.mp member'
      exact Or.inr (Or.inr ⟨rfl, Or.inl ascends⟩)
  · intro extra extra' ascends joint member joint' member'
    obtain ⟨_, _, member⟩ := List.mem_flatMap.mp member
    obtain ⟨_, _, member⟩ := List.mem_flatMap.mp member
    obtain ⟨_, _, rfl⟩ := List.mem_map.mp member
    obtain ⟨_, _, member'⟩ := List.mem_flatMap.mp member'
    obtain ⟨_, _, member'⟩ := List.mem_flatMap.mp member'
    obtain ⟨_, _, rfl⟩ := List.mem_map.mp member'
    exact Or.inr (Or.inl (Nat.add_lt_add_left ascends first))

theorem mem_joints {cut : Cut} : (cut, node) ∈ grammar.joints cells first last ↔
    grammar.JoinsAt cells first last cut node.origin node.category ∧ node.first = first ∧ node.last = last := by
  unfold joints
  constructor
  · intro member
    obtain ⟨extra, short, member⟩ := List.mem_flatMap.mp member
    obtain ⟨⟨⟨l, left⟩, i⟩, lefts, member⟩ := List.mem_flatMap.mp member
    obtain ⟨⟨⟨r, right⟩, j⟩, rights, member⟩ := List.mem_flatMap.mp member
    obtain ⟨⟨rule, features⟩, combined, same⟩ := List.mem_map.mp member
    cases same
    obtain ⟨known, joins⟩ := mem_combine.mp combined
    have short := List.mem_range.mp short
    exact ⟨.intro (by constructor <;> simp only <;> omega) (List.mk_mem_zipIdx_iff_getElem?.mp lefts)
      (List.mk_mem_zipIdx_iff_getElem?.mp rights) known joins, rfl, rfl⟩
  · obtain ⟨⟨symbol, features⟩, first', last', origin⟩ := node
    rintro ⟨made, starts, ends⟩
    dsimp only at made starts ends
    subst starts ends
    cases made with
    | @intro l r left right rule _ inside lefts rights known joins =>
      obtain rfl : rule.symbol = symbol := joins.symbol
      have width : first' + (cut.stop - first') = cut.stop := by omega
      refine List.mem_flatMap.mpr ⟨cut.stop - first', List.mem_range.mpr (by omega), ?_⟩
      rw [width]
      refine List.mem_flatMap.mpr ⟨((l, left), cut.left), List.mk_mem_zipIdx_iff_getElem?.mpr lefts, ?_⟩
      refine List.mem_flatMap.mpr ⟨((r, right), cut.right), List.mk_mem_zipIdx_iff_getElem?.mpr rights, ?_⟩
      exact List.mem_map.mpr ⟨(rule, features), mem_combine.mpr ⟨known, joins⟩, rfl⟩

end Joints

section Closing

variable {fuel position : Nat} {seeds : List Node}

-- While a cell is closed: the nodes that are no seeds are raised from the first node that they can
-- be raised from, and all that the visited nodes are raised to is there.
structure Rising (grammar : Grammar) (first last position : Nat) (seeds : List Node) (chart : Chart) :
    Prop where
  seeded : seeds ⊆ chart.nodesOver first last
  raised : ∀ node ∈ chart.nodesOver first last, node ∈ seeds ∨
    ¬ FirstWins.Holds Node.category seeds node.category ∧
      ∃ source, grammar.RaisesAt chart.covering first last source node.origin node.category ∧
        ∀ earlier < source, ∀ origin, ¬ grammar.RaisesAt chart.covering first last earlier origin node.category
  visited : ∀ earlier < position, ∀ origin category,
    grammar.RaisesAt chart.covering first last earlier origin category →
      FirstWins.Holds Node.category (chart.nodesOver first last) category

theorem Rising.start : grammar.Rising first last 0 (chart.nodesOver first last) chart where
  seeded := List.Subset.refl _
  raised := fun node member => Or.inl member
  visited := by
    intro earlier before
    omega

theorem RaisesAt.bound {origin : Origin} {category : Category}
    (raises : grammar.RaisesAt cells first last position origin category) :
    position < (cells first last).length := by
  cases raises with
  | intro there known raises => exact (List.getElem?_eq_some_iff.mp there).1

theorem raisesAt_grown {origin : Origin} {category : Category}
    (grown : cells first last <+: cells' first last) (old : position < (cells first last).length) :
    grammar.RaisesAt cells' first last position origin category ↔
      grammar.RaisesAt cells first last position origin category := by
  obtain ⟨more, joined⟩ := grown
  have same : (cells' first last)[position]? = (cells first last)[position]? := by
    rw [← joined, List.getElem?_append_left old]
  constructor
  · intro raises
    cases raises with
    | intro there known raises => exact .intro (same ▸ there) known raises
  · intro raises
    cases raises with
    | intro there known raises => exact .intro (same.symm ▸ there) known raises

theorem raisesAt_parent {child : Nat} {part : Node}
    (found : (cells first last)[position]? = some (child, part))
    (parent : node ∈ grammar.parents first last child part.category) :
    grammar.RaisesAt cells first last position node.origin node.category := by
  obtain ⟨rule, listed, rfl⟩ := List.mem_map.mp parent
  obtain ⟨known, production⟩ := mem_unaryRules.mp listed
  exact .intro found known ⟨rfl, production, rfl⟩

theorem RaisesAt.parent {child : Nat} {part : Node} {origin : Origin} {category : Category}
    (raises : grammar.RaisesAt cells first last position origin category)
    (found : (cells first last)[position]? = some (child, part)) :
    ⟨category, first, last, .unary child⟩ ∈ grammar.parents first last child part.category := by
  cases raises with
  | intro there known raises =>
    cases there.symm.trans found
    obtain ⟨symbol, features⟩ := category
    obtain rfl := raises.symbol
    obtain rfl := raises.features
    exact List.mem_map_of_mem (mem_unaryRules.mpr ⟨known, raises.production⟩)

theorem Rising.visit {child : Nat} {part : Node} (rising : grammar.Rising first last position seeds chart)
    (found : (chart.covering first last)[position]? = some (child, part))
    (grown : chart.covering first last <+: next.covering first last)
    (added : next.nodesOver first last = FirstWins.keepAll Node.category (chart.nodesOver first last)
      (grammar.parents first last child part.category)) :
    grammar.Rising first last (position + 1) seeds next := by
  have here : position < (chart.covering first last).length := (List.getElem?_eq_some_iff.mp found).1
  have longer : chart.nodesOver first last <+: next.nodesOver first last := by
    rw [added]
    exact FirstWins.keepAll_prefix
  refine ⟨fun node member => longer.subset (rising.seeded member), ?_, ?_⟩
  · intro node member
    rw [added] at member
    rcases FirstWins.keepAll_first member with old | ⟨fresh, before, after, parents, _⟩
    · rcases rising.raised node old with seed | ⟨apart, source, raises, least⟩
      · exact Or.inl seed
      · refine Or.inr ⟨apart, source, (raisesAt_grown grown raises.bound).mpr raises, ?_⟩
        intro earlier less origin other
        have bound := raises.bound
        exact least earlier less origin ((raisesAt_grown grown (by omega)).mp other)
    · refine Or.inr ⟨fun held => fresh (held.subset rising.seeded), position, ?_, ?_⟩
      · have among : node ∈ grammar.parents first last child part.category := by simp [parents]
        exact (raisesAt_grown grown here).mpr (raisesAt_parent found among)
      · intro earlier less origin other
        exact fresh (rising.visited earlier less origin _ ((raisesAt_grown grown (by omega)).mp other))
  · intro earlier before origin category raises
    have old := (raisesAt_grown grown (by omega)).mp raises
    by_cases now : earlier = position
    · subst now
      rw [added]
      exact FirstWins.keepAll_holds (old.parent found)
    · exact (rising.visited earlier (by omega) origin category old).mono longer

theorem Visits.rising {stop : Nat} (visits : grammar.Visits first last position chart stop next)
    (filed : chart.Filed) (inside : first ≤ last ∧ last < chart.size)
    (rising : grammar.Rising first last position seeds chart) : grammar.Rising first last stop seeds next := by
  induction visits with
  | done => exact rising
  | @visit position stop child chart middle next cell part read found there added rest step =>
    have listed := visit_found filed inside read found there
    obtain ⟨raised, adding, rises, _⟩ := grammar.visit_rises filed inside child part.category
    cases added.symm.trans adding
    have known := filed.addAll_eq (grammar.parents_inside inside child part.category)
    cases added.symm.trans known
    apply step rises.filed (by rwa [rises.grown.size_eq])
    apply rising.visit listed rises.grown.covering_prefix
    exact Chart.nodesOver_putAll fun node member => (parents_made member).1

end Closing

def gathered (grammar : Grammar) (tags : List (List Category)) (chart : Chart) (first last : Nat) :
    List Node :=
  if first = last then chart.readings tags first
  else (grammar.joints chart.covering first last).map Prod.snd

theorem gather_eq (filed : chart.Filed) (inside : last < chart.size) :
    grammar.gather tags chart first last = .ok (grammar.gathered tags chart first last) := by
  unfold gather gathered
  split
  · rfl
  · rw [combinations_eq filed inside, joints_nodes]

theorem mem_readings_iff {position : Nat} : node ∈ chart.readings tags position ↔
    ∃ text, chart.words[position]? = some text ∧ ∃ category ∈ tags.getD position [],
      node = .token category text position := by
  unfold Chart.readings
  rw [List.getD_eq_getElem?_getD]
  cases chart.words[position]? with
  | none => simp
  | some text =>
    cases tags[position]? with
    | none => simp
    | some categories => simp [eq_comm]

-- A seed is the first of its category among all that is found. Only shorter cells are looked at.
theorem gathered_firstFound {words : List String} (spoken : chart.words.toList = words)
    (same : ∀ first' last', last' - first' < last - first → cells first' last' = chart.covering first' last')
    (member : node ∈ FirstWins.keepAll Node.category [] (grammar.gathered tags chart first last)) :
    grammar.FirstFound words tags cells first last node := by
  unfold gathered at member
  split at member
  · rename_i single
    subst single
    rcases FirstWins.keepAll_origin member with none | found
    · cases none
    · obtain ⟨text, word, category, reading, rfl⟩ := mem_readings_iff.mp found
      have read : IsReading tags first first category := ⟨rfl, reading⟩
      refine ⟨fun _ => ⟨text, by simpa [← spoken] using word, rfl⟩, ?_, ?_⟩
      · exact fun unread => absurd read unread
      · exact fun unread => absurd read unread
  · rename_i apart
    have traced : (FirstWins.keepAll (fun joint : Cut × Node => joint.2.category) []
        (grammar.joints chart.covering first last)).map Prod.snd = _ := FirstWins.keepAll_map fun _ => rfl
    rw [← List.map_nil (f := Prod.snd), ← traced] at member
    obtain ⟨⟨cut, node⟩, kept, rfl⟩ := List.mem_map.mp member
    obtain ⟨listed, least⟩ := FirstWins.keepAll_least (grammar.joints_ordered chart.covering first last) kept
    have made := (mem_joints.mp listed).1.congr same
    refine ⟨fun read => absurd read.1 apart, fun _ _ => ⟨cut, made, ?_⟩, fun _ none => ?_⟩
    · intro cut' origin other
      have among : (cut', ⟨node.category, first, last, origin⟩) ∈ grammar.joints chart.covering first last :=
        mem_joints.mpr ⟨other.congr fun first' last' less => (same first' last' less).symm, rfl, rfl⟩
      rcases least _ among rfl with now | later
      · exact Or.inl (congrArg Prod.fst now)
      · exact later
    · exact absurd ⟨cut, node.origin, made⟩ none

theorem gathered_holds {category : Category} (inside : first ≤ last ∧ last < chart.size)
    (way : IsReading tags first last category ∨
      ∃ cut origin, grammar.JoinsAt chart.covering first last cut origin category) :
    FirstWins.Holds Node.category
      (FirstWins.keepAll Node.category [] (grammar.gathered tags chart first last)) category := by
  unfold gathered
  rcases way with ⟨rfl, reading⟩ | ⟨cut, origin, joins⟩
  · have bound : first < chart.words.size := inside.2
    have found : Node.token category chart.words[first] first ∈ chart.readings tags first :=
      mem_readings_iff.mpr ⟨_, Array.getElem?_eq_getElem bound, category, reading, rfl⟩
    rw [if_pos rfl]
    exact FirstWins.keepAll_holds found
  · have found : (cut, ⟨category, first, last, origin⟩) ∈ grammar.joints chart.covering first last :=
      mem_joints.mpr ⟨joins, rfl, rfl⟩
    have apart : first ≠ last := by
      cases joins with
      | intro within lefts rights known joins => omega
    rw [if_neg apart]
    exact FirstWins.keepAll_holds (List.mem_map_of_mem found)

theorem Sound.fillSpan_firstFound (sound : grammar.Sound tags chart)
    (inside : first ≤ last ∧ last < chart.size) (blank : chart.covering first last = [])
    (run : grammar.fillSpan tags chart first last = .ok next) (grown : chart.Extends first last next) :
    ∀ node ∈ next.nodesOver first last,
      grammar.FirstFound chart.words.toList tags next.covering first last node := by
  obtain ⟨found, seeded, stages⟩ := sound.fillSpan_stages inside run
  obtain rfl := Except.ok.inj ((gather_eq sound.filed inside.2).symm.trans stages.gathered)
  have vacant : chart.nodesOver first last = [] := by rw [Chart.nodesOver, blank, List.map_nil]
  have risen := stages.visits.rising stages.filed (by rwa [stages.size_eq]) .start
  rw [stages.seeds, vacant] at risen
  have shorter : ∀ first' last', last' - first' < last - first →
      next.covering first' last' = chart.covering first' last' :=
    fun first' last' less => grown.covering_eq (by omega)
  intro node member
  rcases risen.raised node member with seed | ⟨apart, source, raises, least⟩
  · exact gathered_firstFound rfl shorter seed
  · refine ⟨?_, ?_, ?_⟩
    · intro read
      exact absurd (gathered_holds inside (Or.inl read)) apart
    · rintro _ ⟨cut, origin, joins⟩
      have old := joins.congr fun first' last' less => (shorter first' last' less).symm
      exact absurd (gathered_holds inside (Or.inr ⟨cut, origin, old⟩)) apart
    · intro _ _
      refine ⟨source, raises, ?_⟩
      intro position origin other
      exact Nat.le_of_not_lt fun less => least position less origin other

def KeepsFirst (grammar : Grammar) (words : List String) (tags : List (List Category))
    (done : List (Nat × Nat)) (chart : Chart) : Prop :=
  ∀ span ∈ done, ∀ node ∈ chart.nodesOver span.1 span.2,
    grammar.FirstFound words tags chart.covering span.1 span.2 node

theorem KeepsFirst.step {done rest : List (Nat × Nat)} {span : Nat × Nat}
    (kept : grammar.KeepsFirst words tags done chart)
    (order : done ++ span :: rest = Chart.spansByLength words.length)
    (progress : grammar.Progress words tags done chart)
    (run : grammar.fillSpan tags chart span.1 span.2 = .ok next) (grown : chart.Extends span.1 span.2 next) :
    grammar.KeepsFirst words tags (done ++ [span]) next := by
  obtain ⟨within, early, fresh⟩ := next_span order
  intro other listed node member
  rcases List.mem_append.mp listed with old | new
  · have before := early other old
    unfold Chart.Before at before
    have here : next.covering other.1 other.2 = chart.covering other.1 other.2 :=
      grown.covering_eq (by omega)
    rw [Chart.nodesOver, here] at member
    refine (kept other old node member).congr fun first' last' near => ?_
    exact grown.covering_eq (by omega)
  · cases List.mem_singleton.mp new
    have found := progress.sound.fillSpan_firstFound (by rwa [progress.size_eq])
      (progress.blank span fresh) run grown node member
    rwa [progress.words_eq] at found

theorem first_found_kept (grammar : Grammar) (words : List String) (tags : List (List Category)) :
    ∃ chart cells, grammar.chart words tags = .ok chart ∧
      ∀ first last, first ≤ last → last < words.length →
        chart.entriesAt first last = .ok (cells first last) ∧
        ∀ entry ∈ cells first last, grammar.FirstFound words tags cells first last entry.2 := by
  obtain ⟨chart, run, filled, kept⟩ := grammar.chart_keeping words tags
    (grammar.KeepsFirst words tags)
    (fun done rest span chart next order progress kept run grown => kept.step order progress run grown)
    (by intro span none; cases none)
  refine ⟨chart, chart.covering, run, ?_⟩
  intro first last ordered inside
  refine ⟨filled.sound.filed.entriesAt_eq ⟨ordered, by rwa [filled.size_eq]⟩, ?_⟩
  intro entry member
  exact kept (first, last) (Chart.mem_spansByLength.mpr ⟨ordered, inside⟩) entry.2 (List.mem_map_of_mem member)

end Grammar
end Concord
