import Concord.Proofs.Chart.Additions
import Concord.Proofs.Chart.Filling

namespace Concord

namespace Chart

variable {chart next : Chart} {node : Node} {nodes : List Node} {first last : Nat}

def categoriesOver (chart : Chart) (first last : Nat) : List Category :=
  (chart.nodesOver first last).map Node.category

theorem Filed.categoriesOver_nodup (filed : chart.Filed) : (chart.categoriesOver first last).Nodup := by
  unfold categoriesOver nodesOver List.Nodup
  rw [List.pairwise_map, List.pairwise_map]
  exact filed.covering_distinct

theorem Extends.putAll (here : ∀ node ∈ nodes, node.first = first ∧ node.last = last) :
    chart.Extends first last (nodes.foldl Chart.put chart) := by
  induction nodes generalizing chart with
  | nil => exact .refl
  | cons node rest step =>
    have head : chart.Extends first last (chart.put node) := .put (here node (by simp))
    exact head.trans (step fun other member => here other (by simp [member]))

theorem Filed.putAll (filed : chart.Filed) (inside : ∀ node ∈ nodes, Inside chart.size node) :
    (nodes.foldl Chart.put chart).Filed := by
  induction nodes generalizing chart with
  | nil => exact filed
  | cons node rest step =>
    apply step (filed.put (inside node (by simp)))
    intro other member
    rw [size_put]
    exact inside other (by simp [member])

theorem putAll_held (held : ∀ node ∈ nodes, chart.held node) : nodes.foldl Chart.put chart = chart := by
  induction nodes with
  | nil => rfl
  | cons node rest step =>
    rw [List.foldl_cons, Chart.put, if_pos (held node (by simp))]
    exact step fun other member => held other (by simp [member])

theorem categoriesOver_putAll (here : ∀ node ∈ nodes, node.first = first ∧ node.last = last) :
    (nodes.foldl Chart.put chart).categoriesOver first last =
      FirstWins.keepAll id (chart.categoriesOver first last) (nodes.map Node.category) := by
  unfold categoriesOver
  rw [nodesOver_putAll here]
  exact FirstWins.keepAll_map fun _ => rfl

structure Rises (first last : Nat) (before after : Chart) : Prop where
  filed : after.Filed
  grown : before.Extends first last after
  raised : ∃ more, after.nodesOver first last = before.nodesOver first last ++ more ∧
    ∀ node ∈ more, ∃ child, node.origin = .unary child

theorem Rises.refl (filed : chart.Filed) : Rises first last chart chart where
  filed := filed
  grown := .refl
  raised := ⟨[], by simp, by simp⟩

theorem Rises.trans {before middle after : Chart} (one : Rises first last before middle)
    (two : Rises first last middle after) : Rises first last before after where
  filed := two.filed
  grown := one.grown.trans two.grown
  raised := by
    obtain ⟨early, joined, made⟩ := one.raised
    obtain ⟨late, joined', made'⟩ := two.raised
    refine ⟨early ++ late, by rw [joined', joined, List.append_assoc], ?_⟩
    intro node member
    rcases List.mem_append.mp member with old | new
    · exact made node old
    · exact made' node new

end Chart

namespace Grammar

variable {grammar : Grammar} {chart next middle : Chart} {node part : Node} {cell : Array Nat}
  {first last fuel position stop child : Nat}

-- The visits of a cell up to an end of their own. No fuel limits them.
inductive Visits (grammar : Grammar) (first last : Nat) : Nat → Chart → Nat → Chart → Prop where
  | done {position : Nat} {chart : Chart} {cell : Array Nat} (read : chart.cell first last = .ok cell)
      (past : cell[position]? = none) : Visits grammar first last position chart position chart
  | visit {position stop child : Nat} {chart middle next : Chart} {cell : Array Nat} {part : Node}
      (read : chart.cell first last = .ok cell) (found : cell[position]? = some child)
      (there : chart.node child = .ok part)
      (added : chart.addAll (grammar.parents first last child part.category) = .ok middle)
      (rest : Visits grammar first last (position + 1) middle stop next) :
      Visits grammar first last position chart stop next

theorem Visits.position_le (visits : grammar.Visits first last position chart stop next) : position ≤ stop := by
  induction visits with
  | done => exact Nat.le_refl _
  | visit _ _ _ _ _ step => omega

theorem Visits.closeFrom_eq (visits : grammar.Visits first last position chart stop next)
    (enough : stop ≤ position + fuel) : grammar.closeFrom first last fuel position chart = .ok next := by
  induction visits generalizing fuel with
  | done read past =>
    cases fuel with
    | zero => rfl
    | succ fuel =>
      unfold closeFrom
      rw [read, ok_bind, past]
  | visit read found there added rest step =>
    have later := rest.position_le
    cases fuel with
    | zero => omega
    | succ fuel =>
      unfold closeFrom
      rw [read, ok_bind, found]
      simp only [there, ok_bind, added]
      exact step (by omega)

theorem parents_made {category : Category} (member : node ∈ grammar.parents first last child category) :
    (node.first = first ∧ node.last = last) ∧ node.origin = .unary child := by
  obtain ⟨rule, _, rfl⟩ := List.mem_map.mp member
  exact ⟨⟨rfl, rfl⟩, rfl⟩

theorem parents_inside (grammar : Grammar) (inside : first ≤ last ∧ last < chart.size) (child : Nat)
    (category : Category) :
    ∀ node ∈ grammar.parents first last child category, Chart.Inside chart.size node := by
  intro node member
  obtain ⟨⟨starts, ends⟩, _⟩ := parents_made member
  rwa [Chart.Inside, starts, ends]

theorem parents_categories (grammar : Grammar) (first last child : Nat) (category : Category) :
    (grammar.parents first last child category).map Node.category = grammar.lifts category := by
  unfold parents lifts
  rw [List.map_map]
  rfl

theorem visit_found (filed : chart.Filed) (inside : first ≤ last ∧ last < chart.size)
    (read : chart.cell first last = .ok cell) (found : cell[position]? = some child)
    (there : chart.node child = .ok part) : (chart.covering first last)[position]? = some (child, part) := by
  rw [filed.cell_eq inside] at read
  cases read
  rw [List.getElem?_toArray, List.getElem?_map] at found
  obtain ⟨⟨index, other⟩, listed, rfl⟩ := Option.map_eq_some_iff.mp found
  rw [Chart.entry_node (Chart.mem_covering.mp (List.mem_of_getElem? listed)).1] at there
  cases there
  exact listed

theorem visit_rises (grammar : Grammar) (filed : chart.Filed) (inside : first ≤ last ∧ last < chart.size)
    (child : Nat) (category : Category) :
    ∃ middle, chart.addAll (grammar.parents first last child category) = .ok middle ∧
      Chart.Rises first last chart middle ∧ middle.categoriesOver first last =
        FirstWins.keepAll id (chart.categoriesOver first last) (grammar.lifts category) := by
  have here : ∀ node ∈ grammar.parents first last child category, node.first = first ∧ node.last = last :=
    fun node member => (parents_made member).1
  have within : ∀ node ∈ grammar.parents first last child category, Chart.Inside chart.size node :=
    grammar.parents_inside inside child category
  refine ⟨_, filed.addAll_eq within, ⟨filed.putAll within, .putAll here, ?_⟩, ?_⟩
  · obtain ⟨more, joined, order⟩ := FirstWins.keepAll_append Node.category (chart.nodesOver first last)
      (grammar.parents first last child category)
    refine ⟨more, by rw [Chart.nodesOver_putAll here, joined], ?_⟩
    intro node member
    exact ⟨child, (parents_made (order.subset member)).2⟩
  · rw [Chart.categoriesOver_putAll here, parents_categories]

theorem Visits.rises (visits : grammar.Visits first last position chart stop next) (filed : chart.Filed)
    (inside : first ≤ last ∧ last < chart.size) : Chart.Rises first last chart next := by
  induction visits with
  | done => exact .refl filed
  | @visit position stop child chart middle next cell part read found there added rest step =>
    obtain ⟨raised, adding, rises, _⟩ := grammar.visit_rises filed inside child part.category
    rw [added] at adding
    cases adding
    exact rises.trans (step rises.filed (by rwa [rises.grown.size_eq]))

theorem Visits.stop_eq (visits : grammar.Visits first last position chart stop next) (filed : chart.Filed)
    (inside : first ≤ last ∧ last < chart.size) (early : position ≤ (chart.categoriesOver first last).length) :
    stop = (next.categoriesOver first last).length := by
  induction visits with
  | @done position chart cell read past =>
    rw [filed.cell_eq inside] at read
    cases read
    have behind : (chart.categoriesOver first last).length ≤ position := by
      simpa [Chart.categoriesOver, Chart.nodesOver] using past
    omega
  | @visit position stop child chart middle next cell part read found there added rest step =>
    have listed := visit_found filed inside read found there
    have before := (List.getElem?_eq_some_iff.mp listed).1
    obtain ⟨raised, adding, rises, _⟩ := grammar.visit_rises filed inside child part.category
    rw [added] at adding
    cases adding
    have longer : (chart.covering first last).length ≤ (middle.covering first last).length :=
      rises.grown.covering_prefix.length_le
    apply step rises.filed (by rwa [rises.grown.size_eq])
    simp only [Chart.categoriesOver, Chart.nodesOver, List.length_map]
    exact Nat.le_trans before longer

theorem Visits.categories_eq (visits : grammar.Visits first last position chart stop next)
    (filed : chart.Filed) (inside : first ≤ last ∧ last < chart.size) (enough : stop ≤ position + fuel) :
    next.categoriesOver first last =
      FirstWins.closeFrom id grammar.lifts fuel position (chart.categoriesOver first last) := by
  induction visits generalizing fuel with
  | @done position chart cell read ended =>
    have past : (chart.categoriesOver first last)[position]? = none := by
      rw [filed.cell_eq inside] at read
      cases read
      simpa [Chart.categoriesOver, Chart.nodesOver] using ended
    cases fuel with
    | zero => rfl
    | succ fuel =>
      unfold FirstWins.closeFrom
      rw [past]
  | @visit position stop child chart middle next cell part read found there added rest step =>
    have listed := visit_found filed inside read found there
    have visited : (chart.categoriesOver first last)[position]? = some part.category := by
      simp [Chart.categoriesOver, Chart.nodesOver, listed]
    obtain ⟨raised, adding, rises, categories⟩ := grammar.visit_rises filed inside child part.category
    rw [added] at adding
    cases adding
    have later := rest.position_le
    cases fuel with
    | zero => omega
    | succ fuel =>
      unfold FirstWins.closeFrom
      rw [visited]
      dsimp only
      rw [← categories]
      exact step rises.filed (by rwa [rises.grown.size_eq]) (by omega)

-- No category comes twice and all of them are bound, so the visits come to an end.
theorem visits_end {bound : List Category}
    (within : ∀ category ∈ bound, ∀ parent ∈ grammar.lifts category, parent ∈ bound) (filed : chart.Filed)
    (inside : first ≤ last ∧ last < chart.size) (bounded : chart.categoriesOver first last ⊆ bound)
    (enough : bound.length ≤ position + fuel) :
    ∃ stop next, grammar.Visits first last position chart stop next ∧ stop ≤ position + fuel := by
  induction fuel generalizing position chart with
  | zero =>
    have short := (List.subperm_of_subset filed.categoriesOver_nodup bounded).length_le
    have past : (chart.covering first last).length ≤ position := by
      simp only [Chart.categoriesOver, Chart.nodesOver, List.length_map] at short
      omega
    exact ⟨position, chart, .done (filed.cell_eq inside) (by simpa using past), Nat.le_refl _⟩
  | succ fuel step =>
    cases found : (chart.covering first last)[position]? with
    | none =>
      exact ⟨position, chart, .done (filed.cell_eq inside) (by simp [found]), Nat.le_add_right _ _⟩
    | some entry =>
      obtain ⟨child, part⟩ := entry
      have listed := List.mem_of_getElem? found
      have there := Chart.entry_node (Chart.mem_covering.mp listed).1
      have known : part.category ∈ bound :=
        bounded (List.mem_map_of_mem (List.mem_map_of_mem listed))
      obtain ⟨middle, added, rises, categories⟩ := grammar.visit_rises filed inside child part.category
      have bounded' : middle.categoriesOver first last ⊆ bound := by
        intro category member
        rw [categories] at member
        rcases FirstWins.keepAll_origin member with old | new
        · exact bounded old
        · exact within _ known _ new
      have enough' : bound.length ≤ position + 1 + fuel := by omega
      obtain ⟨stop, next, rest, early⟩ := step rises.filed (by rwa [rises.grown.size_eq]) bounded' enough'
      exact ⟨stop, next, .visit (filed.cell_eq inside) (by simp [found]) there added rest, by omega⟩

theorem closeUnary_visits (grammar : Grammar) (filed : chart.Filed)
    (inside : first ≤ last ∧ last < chart.size) :
    ∃ stop next, grammar.Visits first last 0 chart stop next ∧
      stop ≤ (grammar.liftable (chart.categoriesOver first last)).length ∧
      grammar.closeUnary chart first last = .ok next := by
  have bounded : chart.categoriesOver first last ⊆ grammar.liftable (chart.categoriesOver first last) :=
    List.subset_append_left _ _
  have enough : (grammar.liftable (chart.categoriesOver first last)).length ≤
      0 + (grammar.liftable (chart.categoriesOver first last)).length := by omega
  obtain ⟨stop, next, visits, early⟩ :=
    visits_end (fun category => liftable_lifts) filed inside bounded enough
  refine ⟨stop, next, visits, by omega, ?_⟩
  have fuel : ((chart.covering first last).map Prod.fst).toArray.size * (1 + grammar.rules.length) =
      (grammar.liftable (chart.categoriesOver first last)).length := by
    rw [length_liftable]
    simp [Chart.categoriesOver, Chart.nodesOver]
  unfold closeUnary
  rw [filed.cell_eq inside, ok_bind, fuel]
  exact visits.closeFrom_eq early

structure Stages (grammar : Grammar) (tags : List (List Category)) (first last : Nat) (chart : Chart)
    (found : List Node) (seeded next : Chart) : Prop where
  gathered : grammar.gather tags chart first last = .ok found
  added : chart.addAll found = .ok seeded
  filed : seeded.Filed
  size_eq : seeded.size = chart.size
  seeds : seeded.nodesOver first last = FirstWins.keepAll Node.category (chart.nodesOver first last) found
  visits : grammar.Visits first last 0 seeded (next.categoriesOver first last).length next
  rises : Chart.Rises first last seeded next
  sound : grammar.Sound tags next

theorem Sound.fillSpan_stages {tags : List (List Category)} (sound : grammar.Sound tags chart)
    (inside : first ≤ last ∧ last < chart.size) (run : grammar.fillSpan tags chart first last = .ok next) :
    ∃ found seeded, grammar.Stages tags first last chart found seeded next := by
  obtain ⟨found, collected, due, _⟩ := sound.gather inside
  have added := sound.addAll_eq inside due
  have reached := sound.reaches_putAll inside due
  have inside' : first ≤ last ∧ last < (found.foldl Chart.put chart).size := by rwa [reached.grown.size_eq]
  obtain ⟨stop, after, visits, _, closed⟩ := grammar.closeUnary_visits reached.sound.filed inside'
  obtain ⟨again, closed', finished⟩ := reached.sound.closeUnary inside'
  rw [fillSpan_eq, collected, ok_bind, added, ok_bind, closed] at run
  cases run
  cases closed.symm.trans closed'
  have counted := visits.stop_eq reached.sound.filed inside' (Nat.zero_le _)
  exact ⟨found, _, {
    gathered := collected
    added := added
    filed := reached.sound.filed
    size_eq := reached.grown.size_eq
    seeds := Chart.nodesOver_putAll fun node member => (due node member).here
    visits := counted ▸ visits
    rises := visits.rises reached.sound.filed inside'
    sound := finished.sound }⟩

theorem closeFrom_still (filed : chart.Filed) (inside : first ≤ last ∧ last < chart.size)
    (closed : FirstWins.Closed id grammar.lifts (chart.categoriesOver first last)) :
    grammar.closeFrom first last fuel position chart = .ok chart := by
  induction fuel generalizing position with
  | zero => rfl
  | succ fuel step =>
    unfold closeFrom
    rw [filed.cell_eq inside, ok_bind]
    cases found : (chart.covering first last)[position]? with
    | none => simp [found]
    | some entry =>
      obtain ⟨child, part⟩ := entry
      have listed := List.mem_of_getElem? found
      have held : ∀ node ∈ grammar.parents first last child part.category, chart.held node := by
        intro node member
        obtain ⟨⟨starts, ends⟩, _⟩ := parents_made member
        have lifted : node.category ∈ grammar.lifts part.category := by
          rw [← parents_categories]
          exact List.mem_map_of_mem member
        obtain ⟨category, present, same⟩ :=
          closed part.category (List.mem_map_of_mem (List.mem_map_of_mem listed)) node.category lifted
        obtain ⟨other, known, rfl⟩ := List.mem_map.mp present
        obtain ⟨entry, covered, rfl⟩ := List.mem_map.mp known
        exact ⟨entry, by rwa [starts, ends], same⟩
      have added := filed.addAll_eq (grammar.parents_inside inside child part.category)
      rw [Chart.putAll_held held] at added
      have there := Chart.entry_node (Chart.mem_covering.mp listed).1
      simpa [found, there, added] using step

theorem closeUnary_still (filed : chart.Filed) (inside : first ≤ last ∧ last < chart.size)
    (closed : FirstWins.Closed id grammar.lifts (chart.categoriesOver first last)) :
    grammar.closeUnary chart first last = .ok chart := by
  unfold closeUnary
  rw [filed.cell_eq inside, ok_bind]
  exact closeFrom_still filed inside closed

structure Closes (grammar : Grammar) (first last : Nat) (chart next : Chart) : Prop where
  run : grammar.closeUnary chart first last = .ok next
  ends : ∃ stop, grammar.Visits first last 0 chart stop next
  exact : ∃ before after, chart.nodesAt first last = .ok before ∧ next.nodesAt first last = .ok after ∧
    ∀ category, category ∈ after.map Node.category ↔
      ∃ part ∈ before.map Node.category, grammar.Climbs part category
  here : ∃ before after, chart.cell first last = .ok before ∧ next.cell first last = .ok after ∧
    before.toList <+: after.toList
  elsewhere : ∀ first' last', ¬ (first' = first ∧ last' = last) →
    next.cell first' last' = chart.cell first' last'
  nodes : chart.nodes.toList <+: next.nodes.toList
  words : next.words = chart.words
  again : grammar.closeUnary next first last = .ok next

theorem closes (grammar : Grammar) (filed : chart.Filed) (inside : first ≤ last ∧ last < chart.size) :
    ∃ next, grammar.Closes first last chart next := by
  obtain ⟨stop, next, visits, early, run⟩ := grammar.closeUnary_visits filed inside
  have rises := visits.rises filed inside
  have inside' : first ≤ last ∧ last < next.size := by rwa [rises.grown.size_eq]
  have enough : stop ≤ 0 + (grammar.liftable (chart.categoriesOver first last)).length := by omega
  have categories := visits.categories_eq filed inside enough
  have distinct : (chart.categoriesOver first last).Nodup := filed.categoriesOver_nodup
  refine ⟨next, run, ⟨stop, visits⟩, ?_, ?_, ?_, ?_, rises.grown.words, ?_⟩
  · refine ⟨_, _, filed.nodesAt_eq inside, rises.filed.nodesAt_eq inside', ?_⟩
    intro category
    change category ∈ next.categoriesOver first last ↔ ∃ part ∈ chart.categoriesOver first last, _
    rw [categories]
    exact mem_closeFrom distinct (Nat.le_refl _)
  · refine ⟨_, _, filed.cell_eq inside, rises.filed.cell_eq inside', ?_⟩
    exact rises.grown.covering_prefix.map Prod.fst
  · intro first' last' other
    by_cases within : first' ≤ last' ∧ last' < chart.size
    · rw [filed.cell_eq within, rises.filed.cell_eq (by rwa [rises.grown.size_eq]), rises.grown.covering_eq other]
    · unfold Chart.cell
      rw [dif_neg within, dif_neg (by rwa [rises.grown.size_eq]), rises.grown.size_eq]
  · obtain ⟨fresh, joined, _⟩ := rises.grown.nodes
    exact ⟨fresh, joined.symm⟩
  · apply closeUnary_still rises.filed inside'
    rw [categories]
    exact closeFrom_closed distinct (Nat.le_refl _)

theorem closeUnary_exact (grammar : Grammar) (words : List String) (nodes : List Node) (first last : Nat)
    (inside : first ≤ last ∧ last < words.length) :
    ∃ next, grammar.Closes first last ((Chart.empty words).afterAll nodes) next := by
  have filed : ((Chart.empty words).afterAll nodes).Filed := (Chart.Filed.empty words).afterAll nodes
  apply grammar.closes filed
  rw [Chart.size, Chart.afterAll_words]
  simpa [Chart.empty] using inside

def circle : Grammar where
  start := "NP"
  rules := [⟨"N", 0, .unary "NP", [], 0⟩, ⟨"NP", 0, .unary "N", [], 0⟩, ⟨"S", 0, .unary "NP", [], 0⟩]
  terminals := .ofList []

-- A chart with two readings of one word, one of them added twice; a node outside of the sentence is
-- refused, and one with parts that do not exist is not.
theorem circle_closes : (0 ≤ 0 ∧ 0 < ["ev"].length) ∧
    ∃ next, circle.Closes 0 0
      ((Chart.empty ["ev"]).afterAll [.token ⟨"N", { number := some "Plural" }⟩ "ev" 0, .token ⟨"V", .empty⟩ "ev" 0,
        .token ⟨"V", .empty⟩ "ev" 0, .token ⟨"N", .empty⟩ "at" 3, ⟨⟨"NP", .empty⟩, 0, 0, .binary 5 9⟩]) next := by
  have inside : 0 ≤ 0 ∧ 0 < ["ev"].length := by decide
  exact ⟨inside, circle.closeUnary_exact ["ev"] _ 0 0 inside⟩

end Grammar
end Concord
