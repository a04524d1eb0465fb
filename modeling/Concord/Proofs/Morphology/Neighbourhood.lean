import Concord.Proofs.Morphology.Distance
import Mathlib.Data.Finset.Card
import Mathlib.Data.List.SplitBy

namespace Concord.Spelling

def runs (word : List Char) : List (List Char) := word.splitBy (· == ·)

variable {c d : Char} {word rest : List Char} {later : List (List Char)}

-- What the open run holds and which runs are closed takes no part in where the next run begins.
theorem length_runs_from (letters : List Char) (c : Char) (run : List Char) (closed : List (List Char)) :
    (List.splitBy.loop (· == ·) letters c run closed).length =
      closed.length + (List.splitBy.loop (· == ·) letters c [] []).length := by
  induction letters generalizing c run closed with
  | nil => simp [List.splitBy.loop]
  | cons d letters step =>
    simp only [List.splitBy.loop]
    split
    · rw [step, step d [c] []]
      simp
    · rw [step, step d [] [[c].reverse]]
      simp [Nat.add_assoc]

theorem length_runs_cons (c d : Char) (rest : List Char) :
    (runs (c :: d :: rest)).length = (runs (d :: rest)).length + (if c = d then 0 else 1) := by
  by_cases same : c = d
  · subst same
    simp only [runs, List.splitBy, List.splitBy.loop, beq_self_eq_true, if_true, Nat.add_zero]
    rw [length_runs_from rest c [c] []]
    simp
  · have split : runs ([c] ++ d :: rest) = runs [c] ++ runs (d :: rest) :=
      List.splitBy_append_cons rest (by simpa using same)
    rw [if_neg same, ← List.singleton_append, split, List.length_append, Nat.add_comm]
    rfl

theorem card_behind (c : Char) (later : List (List Char)) :
    (later.map (c :: ·)).toFinset.card = later.toFinset.card := by
  rw [List.card_toFinset, List.dedup_map_of_injective List.cons_injective, List.length_map, List.card_toFinset]

theorem card_before (rest : List Char) : (alphabet.map (· :: rest)).toFinset.card = 32 := by
  have distinct : (alphabet.map (· :: rest)).Nodup := by
    refine List.Nodup.map ?_ (by decide : alphabet.Nodup)
    intro c d same
    exact List.head_eq_of_cons_eq same
  rw [List.toFinset_card_of_nodup distinct, List.length_map]
  rfl

-- A letter that is written at the first place or left for later: the two ways share the word with the letter
-- that stood there.
theorem card_turns (listed : c ∈ alphabet) (member : rest ∈ later) :
    (alphabet.map (· :: rest) ++ later.map (c :: ·)).toFinset.card = later.toFinset.card + 31 := by
  have shared : (alphabet.map (· :: rest)).toFinset ∩ (later.map (c :: ·)).toFinset = {c :: rest} := by
    ext made
    simp only [Finset.mem_inter, List.mem_toFinset, List.mem_map, Finset.mem_singleton]
    constructor
    · rintro ⟨⟨letter, _, rfl⟩, behind, _, same⟩
      rw [List.head_eq_of_cons_eq same]
    · rintro rfl
      exact ⟨⟨c, listed, rfl⟩, rest, member, rfl⟩
  have counted := Finset.card_union_add_card_inter (alphabet.map (· :: rest)).toFinset (later.map (c :: ·)).toFinset
  rw [shared, card_before, card_behind, Finset.card_singleton] at counted
  rw [List.toFinset_append]
  omega

theorem card_deletions (word : List Char) : (deletions word).toFinset.card = (runs word).length := by
  induction word with
  | nil => rfl
  | cons c rest step =>
    cases rest with
    | nil => rfl
    | cons d rest =>
      have again : (d :: rest) ∈ ((deletions (d :: rest)).map (c :: ·)).toFinset ↔ c = d := by
        simp only [List.mem_toFinset, List.mem_map, List.cons.injEq]
        constructor
        · rintro ⟨_, _, same, _⟩
          exact same
        · rintro rfl
          exact ⟨rest, List.mem_cons_self, rfl, rfl⟩
      rw [length_runs_cons, ← step]
      change (List.toFinset ((d :: rest) :: (deletions (d :: rest)).map (c :: ·))).card = _
      rw [List.toFinset_cons, Finset.card_insert_eq_ite, card_behind]
      simp only [again]
      split <;> rfl

theorem card_insertions (letters : ∀ c ∈ word, c ∈ alphabet) :
    (insertions word).toFinset.card = 31 * word.length + 32 := by
  induction word with
  | nil => exact card_before []
  | cons c rest step =>
    obtain ⟨listed, letters⟩ := List.forall_mem_cons.mp letters
    have member : (c :: rest) ∈ insertions rest := Slip.mem_edits.mpr (Slip.Turns.insertion rest listed).makes
    change (alphabet.map (· :: c :: rest) ++ (insertions rest).map (c :: ·)).toFinset.card = _
    rw [card_turns listed member, step letters, List.length_cons]
    omega

def rewritings (word : List Char) : List (List Char) := transpositions word ++ replacements word

theorem length_rewritings {made : List Char} (member : made ∈ rewritings word) : made.length = word.length := by
  rcases List.mem_append.mp member with swapped | replaced
  · have makes : Slip.transposition.Makes word made := Slip.mem_edits.mp swapped
    exact makes.length
  · have makes : Slip.replacement.Makes word made := Slip.mem_edits.mp replaced
    exact makes.length

theorem rewritings_cons (c d : Char) (rest : List Char) :
    (rewritings (c :: d :: rest)).toFinset =
      insert (d :: c :: rest) (alphabet.map (· :: d :: rest) ++ (rewritings (d :: rest)).map (c :: ·)).toFinset := by
  ext made
  simp only [rewritings, transpositions, replacements, List.map_append, List.map_map, List.mem_toFinset,
    List.cons_append, List.mem_cons, List.mem_append, Finset.mem_insert]
  exact or_congr_right or_left_comm

-- The first two letters swapped are made in another way only where they are equal.
theorem swapped_mem (listed : c ∈ alphabet) :
    (d :: c :: rest) ∈ (alphabet.map (· :: d :: rest) ++ (rewritings (d :: rest)).map (c :: ·)).toFinset ↔ c = d := by
  simp only [List.mem_toFinset, List.mem_append, List.mem_map, List.cons.injEq]
  constructor
  · rintro (⟨_, _, _, same, _⟩ | ⟨_, _, same, _⟩)
    · exact same.symm
    · exact same
  · rintro rfl
    exact .inl ⟨c, listed, rfl, rfl, trivial⟩

theorem card_rewritings (letters : ∀ c ∈ word, c ∈ alphabet) :
    (rewritings word).toFinset.card = 31 * word.length + (runs word).length := by
  induction word with
  | nil => rfl
  | cons c rest step =>
    obtain ⟨listed, letters⟩ := List.forall_mem_cons.mp letters
    cases rest with
    | nil =>
      change (alphabet.map (· :: []) ++ []).toFinset.card = _
      rw [List.append_nil, card_before]
      rfl
    | cons d rest =>
      have member : (d :: rest) ∈ rewritings (d :: rest) :=
        List.mem_append_right _ (Slip.mem_edits.mpr (Slip.Turns.replacement d rest (letters d List.mem_cons_self)).makes)
      rw [rewritings_cons, Finset.card_insert_eq_ite, card_turns listed member, step letters, length_runs_cons]
      simp only [swapped_mem listed, List.length_cons]
      split <;> omega

theorem card_append {first second : List (List Char)} (apart : ∀ made ∈ first, made ∉ second) :
    (first ++ second).toFinset.card = first.toFinset.card + second.toFinset.card := by
  have disjoint : Disjoint first.toFinset second.toFinset := by
    rw [Finset.disjoint_left]
    intro made here there
    exact apart made (List.mem_toFinset.mp here) (List.mem_toFinset.mp there)
  rw [List.toFinset_append, Finset.card_union_of_disjoint disjoint]

theorem card_edits (word : List Char) :
    (edits word).toFinset.card =
      (deletions word).toFinset.card + (rewritings word).toFinset.card + (insertions word).toFinset.card := by
  have shorter (made : List Char) (member : made ∈ deletions word) : made.length + 1 = word.length := by
    have makes : Slip.deletion.Makes word made := Slip.mem_edits.mp member
    exact makes.length
  have longer (made : List Char) (member : made ∈ insertions word) : made.length = word.length + 1 := by
    have makes : Slip.insertion.Makes word made := Slip.mem_edits.mp member
    exact makes.length
  have order : edits word = deletions word ++ rewritings word ++ insertions word := by
    simp only [edits, rewritings, List.append_assoc]
  rw [order, card_append, card_append]
  · intro made deleted rewritten
    have less := shorter made deleted
    have same := length_rewritings rewritten
    omega
  · intro made member inserted
    have more := longer made inserted
    rcases List.mem_append.mp member with deleted | rewritten
    · have less := shorter made deleted
      omega
    · have same := length_rewritings rewritten
      omega

theorem nodup_neighbours (word : String) : (neighbours word).Nodup := by
  refine Std.TreeSet.distinct_toList.imp ?_
  intro a b differ same
  exact differ (same ▸ Std.ReflCmp.compare_self)

theorem length_neighbours (word : String) : (neighbours word).length = (edits word.toList).toFinset.card := by
  have same : (neighbours word).toFinset = ((edits word.toList).map String.ofList).toFinset := by
    ext other
    rw [List.mem_toFinset, List.mem_toFinset, mem_neighbours]
  rw [← List.toFinset_card_of_nodup (nodup_neighbours word), same, List.card_toFinset, List.card_toFinset,
    List.dedup_map_of_injective fun _ _ => String.ofList_injective, List.length_map]

theorem neighbours_count (word : String) (letters : Lettered word) :
    (neighbours word).length = 62 * word.length + 32 + 2 * (runs word.toList).length ∧
    ∀ (first second : Slip) (other : List Char), first ≠ second → other ∈ first.edits word.toList →
      other ∈ second.edits word.toList → other = word.toList := by
  constructor
  · rw [length_neighbours, card_edits, card_deletions, card_rewritings letters, card_insertions letters,
      String.length_toList]
    omega
  · intro first second other differ here there
    exact (Slip.mem_edits.mp here).collision (Slip.mem_edits.mp there) differ

-- Three letters in two runs. Two of its slips make nothing new of it, and both make the word itself.
theorem eel_count :
    Lettered "eel" ∧ (runs "eel".toList).length = 2 ∧ (neighbours "eel").length = 222 ∧
    ∃ other, other ∈ Slip.transposition.edits "eel".toList ∧ other ∈ Slip.replacement.edits "eel".toList ∧
      other = "eel".toList := by
  have letters : Lettered "eel" := by decide
  have two : (runs "eel".toList).length = 2 := by decide
  have swapped : "eel".toList ∈ Slip.transposition.edits "eel".toList := by decide
  have rewritten : "eel".toList ∈ Slip.replacement.edits "eel".toList := by decide
  obtain ⟨counted, apart⟩ := neighbours_count "eel" letters
  rw [two] at counted
  exact ⟨letters, two, counted, _, swapped, rewritten, apart _ _ _ (by decide) swapped rewritten⟩

end Concord.Spelling
