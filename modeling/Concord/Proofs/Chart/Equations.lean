import Concord.Proofs.Chart.Lifting
import Concord.Proofs.Chart.Support

namespace Concord

def readingsAt (words : List String) (tags : List (List Category)) (position : Nat) : List Constituent :=
  match words[position]?, tags[position]? with
  | some text, some categories => categories.map fun category =>
    ⟨category, .branch category.symbol ⟨position, position + 1⟩ [.leaf text ⟨position, position + 1⟩]⟩
  | _, _ => []

namespace Grammar

variable {grammar : Grammar} {tags : List (List Category)} {chart : Chart} {first last : Nat}

def raise (grammar : Grammar) (first last : Nat) (part : Constituent) : List Constituent :=
  (grammar.unaryRules part.category.symbol).map fun rule =>
    ⟨⟨rule.symbol, part.category.features⟩, .branch rule.symbol ⟨first, last + 1⟩ [part.tree]⟩

def join (grammar : Grammar) (first last : Nat) (lefts rights : List Constituent) : List Constituent :=
  lefts.flatMap fun left => rights.flatMap fun right =>
    (grammar.combine left.category right.category).map fun (rule, features) =>
      ⟨⟨rule.symbol, features⟩, .branch rule.symbol ⟨first, last + 1⟩ [left.tree, right.tree]⟩

def seeds (grammar : Grammar) (words : List String) (tags : List (List Category))
    (cells : Nat → Nat → List Constituent) (first last : Nat) : List Constituent :=
  if first = last then readingsAt words tags first
  else (List.range (last - first)).flatMap fun extra =>
    grammar.join first last (cells first (first + extra)) (cells (first + extra + 1) last)

def closing (grammar : Grammar) (first last fuel position : Nat) (cell : List Constituent) :
    List Constituent :=
  FirstWins.closeFrom Constituent.category (grammar.raise first last) fuel position cell

def settle (grammar : Grammar) (first last : Nat) (seeds : List Constituent) : List Constituent :=
  let cell := FirstWins.keepAll Constituent.category [] seeds
  grammar.closing first last (cell.length * (1 + grammar.rules.length)) 0 cell

theorem constituent_reading {position : Nat} {forest : List Tree} :
    (chart.readings tags position).map (·.constituent forest) =
      readingsAt chart.words.toList tags position := by
  unfold Chart.readings readingsAt
  rw [Array.getElem?_toList]
  split
  · rename_i word listed
    simp [word, listed, Node.constituent, Node.token, Node.grow, Node.extent]
  · rename_i missing
    split
    · rename_i word listed
      exact absurd listed (missing _ _ (by simpa using word))
    · rfl

theorem constituent_parents {child : Nat} {part : Node} (rooted : chart.Rooted)
    (found : chart.nodes[child]? = some part) :
    (grammar.parents first last child part.category).map (·.constituent chart.forest) =
      grammar.raise first last (part.constituent chart.forest) := by
  have planted := rooted.forest_at found
  simp [parents, raise, Node.constituent, Node.grow, Node.extent, Node.children, planted]

theorem constituent_combinations {cut : Nat} (rooted : chart.Rooted) :
    (grammar.combineCells first last (chart.covering first cut) (chart.covering (cut + 1) last)).map
        (·.constituent chart.forest) =
      grammar.join first last (chart.constituents first cut) (chart.constituents (cut + 1) last) := by
  unfold combineCells join Chart.constituents
  rw [List.map_flatMap, List.flatMap_map]
  refine List.flatMap_congr ?_
  rintro ⟨left, leftPart⟩ leftFound
  have leftPlanted := rooted.forest_at (Chart.mem_covering.mp leftFound).1
  rw [List.map_flatMap, List.flatMap_map]
  refine List.flatMap_congr ?_
  rintro ⟨right, rightPart⟩ rightFound
  have rightPlanted := rooted.forest_at (Chart.mem_covering.mp rightFound).1
  simp [Node.constituent, Node.grow, Node.extent, Node.children, leftPlanted, rightPlanted]

theorem raise_holds {part : Constituent} {whole : Category} {rule : Rule}
    (known : rule ∈ grammar.rules) (raises : rule.Raises part.category whole) :
    ∃ parent ∈ grammar.raise first last part, parent.category = whole := by
  have listed := mem_unaryRules.mpr ⟨known, raises.production⟩
  refine ⟨_, List.mem_map_of_mem listed, ?_⟩
  cases whole
  simp only [Category.mk.injEq]
  exact ⟨raises.symbol, raises.features.symm⟩

theorem join_holds {lefts rights : List Constituent} {left right : Constituent} {whole : Category}
    {rule : Rule} (leftMember : left ∈ lefts) (rightMember : right ∈ rights)
    (known : rule ∈ grammar.rules) (joins : rule.Joins left.category right.category whole) :
    ∃ item ∈ grammar.join first last lefts rights, item.category = whole := by
  obtain ⟨symbol, features⟩ := whole
  obtain rfl : rule.symbol = symbol := joins.symbol
  have combined := mem_combine.mpr ⟨known, joins⟩
  refine ⟨⟨⟨rule.symbol, features⟩, .branch rule.symbol ⟨first, last + 1⟩ [left.tree, right.tree]⟩, ?_, rfl⟩
  refine List.mem_flatMap.mpr ⟨left, leftMember, List.mem_flatMap.mpr ⟨right, rightMember, ?_⟩⟩
  exact List.mem_map.mpr ⟨(rule, features), combined, rfl⟩

def reach (grammar : Grammar) (cell : List Constituent) : List Category :=
  cell.map Constituent.category ++
    cell.flatMap fun item => grammar.rules.map fun rule => ⟨rule.symbol, item.category.features⟩

theorem reach_eq (cell : List Constituent) :
    grammar.reach cell = grammar.liftable (cell.map Constituent.category) := by
  unfold reach liftable
  rw [List.flatMap_map]

theorem length_reach (cell : List Constituent) :
    (grammar.reach cell).length = cell.length * (1 + grammar.rules.length) := by
  rw [reach_eq, length_liftable, List.length_map]

theorem raise_reach (grammar : Grammar) (first last : Nat) (cell : List Constituent) (item : Constituent)
    (within : item.category ∈ grammar.reach cell) :
    ∀ parent ∈ grammar.raise first last item, parent.category ∈ grammar.reach cell := by
  intro parent member
  obtain ⟨rule, listed, rfl⟩ := List.mem_map.mp member
  rw [reach_eq] at within ⊢
  exact liftable_lifts within _ (List.mem_map_of_mem listed)

theorem settle_holds {seeds : List Constituent} {item : Constituent} (member : item ∈ seeds) :
    FirstWins.Holds Constituent.category (grammar.settle first last seeds) item.category :=
  (FirstWins.keepAll_holds member).mono FirstWins.closeFrom_prefix

theorem settle_closed (seeds : List Constituent) :
    FirstWins.Closed Constituent.category (grammar.raise first last) (grammar.settle first last seeds) := by
  have within := grammar.raise_reach first last (FirstWins.keepAll Constituent.category [] seeds)
  refine FirstWins.closeFrom_closed within (FirstWins.keepAll_nodup (by simp)) ?_ ?_ ?_
  · exact fun item member => List.mem_append_left _ (List.mem_map_of_mem member)
  · refine Nat.le_of_eq ?_
    rw [length_reach, Nat.zero_add]
  · intro index early
    omega

end Grammar
end Concord
