import Mathlib.Logic.Relation
import Concord.Proofs.Chart.FirstWins
import Concord.Proofs.Grammar.Rules

namespace Concord.Grammar

variable {grammar : Grammar} {part whole category : Category} {cell : List Category} {fuel : Nat}

def lifts (grammar : Grammar) (part : Category) : List Category :=
  (grammar.unaryRules part.symbol).map fun rule => ⟨rule.symbol, part.features⟩

def Leads (grammar : Grammar) (low high : String) : Prop :=
  ∃ rule ∈ grammar.rules, rule.production = .unary low ∧ rule.symbol = high

theorem mem_lifts : whole ∈ grammar.lifts part ↔
    grammar.Leads part.symbol whole.symbol ∧ whole.features = part.features := by
  unfold lifts Leads
  rw [List.mem_map]
  constructor
  · rintro ⟨rule, listed, rfl⟩
    obtain ⟨known, production⟩ := mem_unaryRules.mp listed
    exact ⟨⟨rule, known, production, rfl⟩, rfl⟩
  · rintro ⟨⟨rule, known, production, symbol⟩, features⟩
    exact ⟨rule, mem_unaryRules.mpr ⟨known, production⟩, by rw [symbol, ← features]⟩

def Climbs (grammar : Grammar) (part whole : Category) : Prop :=
  Relation.ReflTransGen grammar.Leads part.symbol whole.symbol ∧ whole.features = part.features

theorem Climbs.refl : grammar.Climbs part part := ⟨.refl, rfl⟩

theorem Climbs.lift (climbs : grammar.Climbs part category) (lifted : whole ∈ grammar.lifts category) :
    grammar.Climbs part whole := by
  obtain ⟨leads, features⟩ := mem_lifts.mp lifted
  exact ⟨climbs.1.tail leads, features.trans climbs.2⟩

-- Unary rules change the symbol only, so what they can reach is finite.
def liftable (grammar : Grammar) (cell : List Category) : List Category :=
  cell ++ cell.flatMap fun category => grammar.rules.map fun rule => ⟨rule.symbol, category.features⟩

theorem length_liftable (grammar : Grammar) (cell : List Category) :
    (grammar.liftable cell).length = cell.length * (1 + grammar.rules.length) := by
  have lifted : (cell.flatMap fun category => grammar.rules.map fun rule =>
      (⟨rule.symbol, category.features⟩ : Category)).length = cell.length * grammar.rules.length := by
    simp [List.length_flatMap]
  rw [liftable, List.length_append, lifted, Nat.mul_add, Nat.mul_one]

theorem liftable_features (within : category ∈ grammar.liftable cell) :
    ∃ old ∈ cell, old.features = category.features := by
  rcases List.mem_append.mp within with there | lifted
  · exact ⟨category, there, rfl⟩
  · obtain ⟨old, present, among⟩ := List.mem_flatMap.mp lifted
    obtain ⟨rule, _, rfl⟩ := List.mem_map.mp among
    exact ⟨old, present, rfl⟩

theorem liftable_lifts (within : category ∈ grammar.liftable cell) :
    ∀ parent ∈ grammar.lifts category, parent ∈ grammar.liftable cell := by
  intro parent lifted
  obtain ⟨⟨rule, known, _, symbol⟩, features⟩ := mem_lifts.mp lifted
  obtain ⟨old, present, same⟩ := liftable_features within
  refine List.mem_append_right _ (List.mem_flatMap.mpr ⟨old, present, ?_⟩)
  exact List.mem_map.mpr ⟨rule, known, by rw [symbol, same, ← features]⟩

-- A closed list holds what climbs from any of its categories. By induction on the chain of rules.
theorem Climbs.mem_closed (closed : FirstWins.Closed id grammar.lifts cell) (member : part ∈ cell)
    (climbs : grammar.Climbs part whole) : whole ∈ cell := by
  obtain ⟨chain, features⟩ := climbs
  obtain ⟨symbol, bundle⟩ := whole
  obtain rfl : bundle = part.features := features
  dsimp only at chain
  induction chain with
  | refl => exact member
  | @tail low high _ leads step =>
    have lifted : (⟨high, part.features⟩ : Category) ∈ grammar.lifts ⟨low, part.features⟩ :=
      mem_lifts.mpr ⟨leads, rfl⟩
    obtain ⟨other, held, rfl⟩ := closed _ step _ lifted
    exact held

theorem closeFrom_closed (distinct : cell.Nodup) (enough : (grammar.liftable cell).length ≤ fuel) :
    FirstWins.Closed id grammar.lifts (FirstWins.closeFrom id grammar.lifts fuel 0 cell) := by
  have within : ∀ category, id category ∈ grammar.liftable cell →
      ∀ parent ∈ grammar.lifts category, id parent ∈ grammar.liftable cell := fun category => liftable_lifts
  apply FirstWins.closeFrom_closed within
  · rwa [List.map_id]
  · exact fun category member => List.mem_append_left _ member
  · rwa [Nat.zero_add]
  · intro index early
    omega

theorem mem_closeFrom (distinct : cell.Nodup) (enough : (grammar.liftable cell).length ≤ fuel) :
    category ∈ FirstWins.closeFrom id grammar.lifts fuel 0 cell ↔
      ∃ part ∈ cell, grammar.Climbs part category := by
  constructor
  · have start : ∀ found ∈ cell, ∃ part ∈ cell, grammar.Climbs part found :=
      fun part member => ⟨part, member, .refl⟩
    have pass : ∀ found, (∃ part ∈ cell, grammar.Climbs part found) →
        ∀ parent ∈ grammar.lifts found, ∃ part ∈ cell, grammar.Climbs part parent := by
      rintro found ⟨part, member, climbs⟩ parent lifted
      exact ⟨part, member, climbs.lift lifted⟩
    exact FirstWins.closeFrom_all start pass category
  · rintro ⟨part, member, climbs⟩
    exact climbs.mem_closed (closeFrom_closed distinct enough) (FirstWins.closeFrom_prefix.subset member)

end Concord.Grammar
