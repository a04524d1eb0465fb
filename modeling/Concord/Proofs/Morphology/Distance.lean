import Concord.Proofs.Morphology.Correction
import Concord.Proofs.Morphology.Slips
import Mathlib.Order.Bounds.Basic

namespace Concord.Spelling

-- Two words aligned letter by letter, with the number of slips. What one slip has made stays as it is.
inductive Aligned : Nat → List Char → List Char → Prop
  | done : Aligned 0 [] []
  | kept (c : Char) {slips : Nat} {word other : List Char} (aligned : Aligned slips word other) :
      Aligned slips (c :: word) (c :: other)
  | deleted (c : Char) {slips : Nat} {word other : List Char} (aligned : Aligned slips word other) :
      Aligned (slips + 1) (c :: word) other
  | inserted (c : Char) {slips : Nat} {word other : List Char} (aligned : Aligned slips word other) :
      Aligned (slips + 1) word (c :: other)
  | replaced (c d : Char) {slips : Nat} {word other : List Char} (aligned : Aligned slips word other) :
      Aligned (slips + 1) (c :: word) (d :: other)
  | transposed (c d : Char) {slips : Nat} {word other : List Char} (aligned : Aligned slips word other) :
      Aligned (slips + 1) (c :: d :: word) (d :: c :: other)

-- The distance of optimal string alignment: deletions, insertions, replacements and transpositions of
-- neighbours cost one each, and nothing is edited twice.
def distance : List Char → List Char → Nat
  | [], other => other.length
  | word, [] => word.length
  | c :: word, d :: other =>
    let single := min (min (distance word (d :: other)) (distance (c :: word) other) + 1)
      (distance word other + if c = d then 0 else 1)
    if word.head? = some d ∧ other.head? = some c then
      min single (distance word.tail other.tail + 1)
    else single
termination_by word other => word.length + other.length
decreasing_by all_goals simp only [List.length_cons, List.length_tail]; omega

variable {slips : Nat} {c d : Char} {word other : List Char} {slip : Slip}

theorem distance_nil (other : List Char) : distance [] other = other.length := by
  unfold distance
  rfl

theorem distance_to_nil (word : List Char) : distance word [] = word.length := by
  cases word <;> unfold distance <;> rfl

theorem distance_le_single (c d : Char) (word other : List Char) :
    distance (c :: word) (d :: other) ≤
      min (min (distance word (d :: other)) (distance (c :: word) other) + 1)
        (distance word other + if c = d then 0 else 1) := by
  rw [distance]
  split <;> omega

theorem distance_deleted_le (c : Char) (word other : List Char) :
    distance (c :: word) other ≤ distance word other + 1 := by
  cases other with
  | nil => simp [distance_to_nil]
  | cons d other =>
    have least := distance_le_single c d word other
    omega

theorem distance_inserted_le (d : Char) (word other : List Char) :
    distance word (d :: other) ≤ distance word other + 1 := by
  cases word with
  | nil => simp [distance_nil]
  | cons c word =>
    have least := distance_le_single c d word other
    omega

theorem distance_transposed_le (c d : Char) (word other : List Char) :
    distance (c :: d :: word) (d :: c :: other) ≤ distance word other + 1 := by
  rw [distance]
  simp only [List.head?_cons, List.tail_cons, and_self, if_true]
  exact Nat.min_le_right _ _

theorem distance_attained (c d : Char) (word other : List Char) :
    distance (c :: word) (d :: other) = distance word (d :: other) + 1 ∨
      distance (c :: word) (d :: other) = distance (c :: word) other + 1 ∨
      distance (c :: word) (d :: other) = distance word other + (if c = d then 0 else 1) ∨
      word.head? = some d ∧ other.head? = some c ∧
        distance (c :: word) (d :: other) = distance word.tail other.tail + 1 := by
  rw [distance]
  split
  · next crossed =>
    simp only [crossed, true_and]
    omega
  · omega

theorem distance_le (aligned : Aligned slips word other) : distance word other ≤ slips := by
  induction aligned with
  | done => simp [distance_nil]
  | @kept c _ word other _ step =>
    have least := distance_le_single c c word other
    simp only [if_true] at least
    omega
  | @deleted c _ word other _ step =>
    have least := distance_deleted_le c word other
    omega
  | @inserted c _ word other _ step =>
    have least := distance_inserted_le c word other
    omega
  | @replaced c d _ word other _ step =>
    have least := distance_le_single c d word other
    split at least <;> omega
  | @transposed c d _ word other _ step =>
    have least := distance_transposed_le c d word other
    omega

theorem aligned_deletions (word : List Char) : Aligned word.length word [] := by
  induction word with
  | nil => exact .done
  | cons c word step => exact .deleted c step

theorem aligned_insertions (other : List Char) : Aligned other.length [] other := by
  induction other with
  | nil => exact .done
  | cons d other step => exact .inserted d step

theorem aligned_distance (word other : List Char) : Aligned (distance word other) word other := by
  match word, other with
  | [], other =>
    rw [distance_nil]
    exact aligned_insertions other
  | c :: word, [] =>
    rw [distance_to_nil]
    exact aligned_deletions (c :: word)
  | c :: word, d :: other =>
    rcases distance_attained c d word other with cost | cost | cost | ⟨first, second, cost⟩
    · rw [cost]
      exact .deleted c (aligned_distance word (d :: other))
    · rw [cost]
      exact .inserted d (aligned_distance (c :: word) other)
    · rw [cost]
      split
      · next same =>
        subst same
        exact .kept c (aligned_distance word other)
      · exact .replaced c d (aligned_distance word other)
    · obtain ⟨word, rfl⟩ := List.head?_eq_some_iff.mp first
      obtain ⟨other, rfl⟩ := List.head?_eq_some_iff.mp second
      rw [cost]
      exact .transposed c d (aligned_distance word other)
termination_by word.length + other.length

theorem distance_least (word other : List Char) :
    IsLeast {slips | Aligned slips word other} (distance word other) :=
  ⟨aligned_distance word other, fun _ => distance_le⟩

theorem aligned_self (word : List Char) : Aligned 0 word word := by
  induction word with
  | nil => exact .done
  | cons c word step => exact .kept c step

theorem Aligned.eq (aligned : Aligned slips word other) (none : slips = 0) : word = other := by
  induction aligned with
  | done => rfl
  | kept c _ step => rw [step none]
  | deleted => omega
  | inserted => omega
  | replaced => omega
  | transposed => omega

theorem Slip.Makes.aligned (makes : slip.Makes word other) : Aligned 1 word other := by
  obtain ⟨front, rest, turned, rfl, rfl, turns⟩ := makes
  induction front with
  | cons c front step => exact .kept c step
  | nil =>
    cases turns with
    | deletion c => exact .deleted c (aligned_self _)
    | transposition c d => exact .transposed c d (aligned_self _)
    | replacement c => exact .replaced c _ (aligned_self _)
    | insertion => exact .inserted _ (aligned_self _)

-- Whatever the one slip has written stands in the other word, so it is a letter.
theorem Aligned.makes (aligned : Aligned slips word other) (one : slips = 1) (letters : ∀ c ∈ other, c ∈ alphabet) :
    ∃ slip : Slip, slip.Makes word other := by
  induction aligned with
  | done => cases one
  | kept c _ step =>
    obtain ⟨slip, makes⟩ := step one fun d member => letters d (List.mem_cons_of_mem c member)
    exact ⟨slip, makes.behind c⟩
  | deleted c rest =>
    cases rest.eq (Nat.succ.inj one)
    exact ⟨.deletion, (Slip.Turns.deletion c _).makes⟩
  | inserted c rest =>
    cases rest.eq (Nat.succ.inj one)
    exact ⟨.insertion, (Slip.Turns.insertion _ (letters c List.mem_cons_self)).makes⟩
  | replaced c d rest =>
    cases rest.eq (Nat.succ.inj one)
    exact ⟨.replacement, (Slip.Turns.replacement c _ (letters d List.mem_cons_self)).makes⟩
  | transposed c d rest =>
    cases rest.eq (Nat.succ.inj one)
    exact ⟨.transposition, (Slip.Turns.transposition c d _).makes⟩

theorem distance_eq_zero : distance word other = 0 ↔ word = other := by
  constructor
  · exact (aligned_distance word other).eq
  · rintro rfl
    exact Nat.le_zero.mp (distance_le (aligned_self word))

theorem distance_eq_one (letters : ∀ c ∈ other, c ∈ alphabet) (differ : other ≠ word) :
    distance word other = 1 ↔ ∃ slip : Slip, slip.Makes word other := by
  constructor
  · intro one
    exact (aligned_distance word other).makes one letters
  · rintro ⟨slip, makes⟩
    have within := distance_le makes.aligned
    have apart := mt distance_eq_zero.mp differ.symm
    omega

def Lettered (word : String) : Prop := ∀ c ∈ word.toList, c ∈ alphabet

theorem mem_neighbours_iff {word other : String} :
    other ∈ neighbours word ↔ ∃ slip : Slip, slip.Makes word.toList other.toList := by
  rw [mem_neighbours, ← mem_edits, List.mem_map]
  constructor
  · rintro ⟨made, member, rfl⟩
    rwa [String.toList_ofList]
  · intro member
    exact ⟨other.toList, member, String.ofList_toList⟩

theorem neighbours_exact (word other : String) :
    (other ∈ neighbours word ↔ ∃ slip : Slip, slip.Makes word.toList other.toList) ∧
    (word ∈ neighbours word ↔
      (∃ c ∈ word.toList, c ∈ alphabet) ∨ ∃ front c back, word.toList = front ++ c :: c :: back) ∧
    (Lettered word → Lettered other → (other ∈ neighbours word ↔ word ∈ neighbours other)) ∧
    (Lettered word → Lettered other → other ≠ word →
      (other ∈ neighbours word ↔ distance word.toList other.toList = 1)) ∧
    IsLeast {slips | Aligned slips word.toList other.toList} (distance word.toList other.toList) := by
  simp only [mem_neighbours_iff]
  refine ⟨trivial, Slip.makes_self, ?_, ?_, distance_least _ _⟩
  · intro letters letters'
    constructor
    · rintro ⟨slip, makes⟩
      exact makes.back letters
    · rintro ⟨slip, makes⟩
      exact makes.back letters'
  · intro _ letters differ
    exact (distance_eq_one letters fun same => differ (String.toList_inj.mp same)).symm

instance (word : String) : Decidable (Lettered word) := List.decidableBAll (· ∈ alphabet) word.toList

theorem gel_neighbours :
    Lettered "gel" ∧ Lettered "egl" ∧ "egl" ≠ "gel" ∧ "egl" ∈ neighbours "gel" ∧ "gel" ∈ neighbours "egl" ∧
      distance "gel".toList "egl".toList = 1 := by
  have letters : Lettered "gel" := by decide
  have letters' : Lettered "egl" := by decide
  have differ : "egl" ≠ "gel" := by decide
  have member := (neighbours_exact "gel" "egl").1.mpr
    ⟨.transposition, [], "gel".toList, "egl".toList, rfl, rfl, .transposition 'g' 'e' ['l']⟩
  obtain ⟨-, -, symmetric, near, -⟩ := neighbours_exact "gel" "egl"
  exact ⟨letters, letters', differ, member, (symmetric letters letters').mp member, (near letters letters' differ).mp member⟩

end Concord.Spelling
