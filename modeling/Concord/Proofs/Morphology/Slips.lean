import Concord.Morphology.Spelling
import Mathlib.Data.List.Basic
import Mathlib.Data.List.Perm.Basic

namespace Concord.Spelling

inductive Slip where
  | deletion
  | transposition
  | replacement
  | insertion
  deriving DecidableEq

namespace Slip

inductive Turns : Slip → List Char → List Char → Prop
  | deletion (c : Char) (rest : List Char) : Turns .deletion (c :: rest) rest
  | transposition (c d : Char) (rest : List Char) : Turns .transposition (c :: d :: rest) (d :: c :: rest)
  | replacement (c : Char) {letter : Char} (rest : List Char) (listed : letter ∈ alphabet) :
      Turns .replacement (c :: rest) (letter :: rest)
  | insertion {letter : Char} (rest : List Char) (listed : letter ∈ alphabet) :
      Turns .insertion rest (letter :: rest)

-- A word before and after a slip. Its place may be before all letters or behind all of them.
def Makes (slip : Slip) (word other : List Char) : Prop :=
  ∃ front rest turned, word = front ++ rest ∧ other = front ++ turned ∧ slip.Turns rest turned

def edits : Slip → List Char → List (List Char)
  | deletion => deletions
  | transposition => transpositions
  | replacement => replacements
  | insertion => insertions

def turned : Slip → List Char → List (List Char)
  | deletion, _ :: rest => [rest]
  | transposition, c :: d :: rest => [d :: c :: rest]
  | replacement, _ :: rest => alphabet.map (· :: rest)
  | insertion, rest => alphabet.map (· :: rest)
  | _, _ => []

variable {slip other : Slip} {c : Char} {word rest made : List Char}

theorem mem_turned : made ∈ slip.turned word ↔ slip.Turns word made := by
  constructor
  · intro member
    unfold turned at member
    split at member
    · cases List.mem_singleton.mp member
      exact .deletion _ _
    · cases List.mem_singleton.mp member
      exact .transposition _ _ _
    · obtain ⟨letter, listed, rfl⟩ := List.mem_map.mp member
      exact .replacement _ _ listed
    · obtain ⟨letter, listed, rfl⟩ := List.mem_map.mp member
      exact .insertion _ listed
    · cases member
  · intro turns
    cases turns with
    | deletion => exact List.mem_singleton_self _
    | transposition => exact List.mem_singleton_self _
    | replacement _ _ listed => exact List.mem_map_of_mem listed
    | insertion _ listed => exact List.mem_map_of_mem listed

theorem edits_nil (slip : Slip) : slip.edits [] = slip.turned [] := by
  cases slip <;> rfl

theorem edits_cons (slip : Slip) (c : Char) (rest : List Char) :
    slip.edits (c :: rest) = slip.turned (c :: rest) ++ (slip.edits rest).map (c :: ·) := by
  cases slip with
  | transposition => cases rest <;> rfl
  | deletion => rfl
  | replacement => rfl
  | insertion => rfl

theorem Turns.makes (turns : slip.Turns word made) : slip.Makes word made := ⟨[], word, made, rfl, rfl, turns⟩

theorem Makes.behind (makes : slip.Makes word made) (c : Char) : slip.Makes (c :: word) (c :: made) := by
  obtain ⟨front, rest, turned, rfl, rfl, turns⟩ := makes
  exact ⟨c :: front, rest, turned, rfl, rfl, turns⟩

theorem makes_nil : slip.Makes [] made ↔ slip.Turns [] made := by
  constructor
  · rintro ⟨front, rest, turned, whole, rfl, turns⟩
    obtain ⟨rfl, rfl⟩ := List.append_eq_nil_iff.mp whole.symm
    exact turns
  · exact Turns.makes

theorem makes_cons :
    slip.Makes (c :: word) made ↔
      slip.Turns (c :: word) made ∨ ∃ later, slip.Makes word later ∧ c :: later = made := by
  constructor
  · rintro ⟨front, rest, turned, whole, rfl, turns⟩
    cases front with
    | nil =>
      cases whole
      exact .inl turns
    | cons first front =>
      cases whole
      exact .inr ⟨front ++ turned, ⟨front, rest, turned, rfl, rfl, turns⟩, rfl⟩
  · rintro (turns | ⟨later, makes, rfl⟩)
    · exact turns.makes
    · exact makes.behind c

theorem mem_edits : made ∈ slip.edits word ↔ slip.Makes word made := by
  induction word generalizing made with
  | nil => rw [edits_nil, mem_turned, makes_nil]
  | cons c rest step =>
    rw [edits_cons, List.mem_append, mem_turned, List.mem_map, makes_cons]
    simp only [step]

theorem Makes.length (makes : slip.Makes word made) :
    made.length + (if slip = deletion then 1 else 0) = word.length + (if slip = insertion then 1 else 0) := by
  obtain ⟨front, rest, turned, rfl, rfl, turns⟩ := makes
  cases turns <;> simp [Nat.add_assoc]

theorem Makes.perm (makes : transposition.Makes word made) : made.Perm word := by
  obtain ⟨front, rest, turned, rfl, rfl, turns⟩ := makes
  cases turns with
  | transposition c d rest => exact (List.Perm.swap c d rest).append_left front

-- A replacement that only brings the letters into another order has put a letter in its own place.
theorem Makes.unchanged (makes : replacement.Makes word made) (order : made.Perm word) : made = word := by
  obtain ⟨front, rest, turned, rfl, rfl, turns⟩ := makes
  cases turns with
  | replacement c rest listed =>
    rename_i letter
    have swapped := (List.perm_append_left_iff front).mp order
    have counted := swapped.count_eq letter
    by_cases same : c = letter
    · rw [same]
    · simp [same] at counted

theorem Makes.collision (here : slip.Makes word made) (there : other.Makes word made) (differ : slip ≠ other) :
    made = word := by
  have counted := here.length
  have counted' := there.length
  cases slip <;> cases other
  case transposition.replacement => exact there.unchanged here.perm
  case replacement.transposition => exact here.unchanged there.perm
  -- Any other two differ in the number of letters that they leave.
  all_goals first
    | exact absurd rfl differ
    | simp only [reduceCtorEq, if_true, if_false] at counted counted'; omega

theorem makes_self :
    (∃ slip : Slip, slip.Makes word word) ↔
      (∃ c ∈ word, c ∈ alphabet) ∨ ∃ front c back, word = front ++ c :: c :: back := by
  constructor
  · rintro ⟨slip, front, rest, turned, rfl, same, turns⟩
    have same := List.append_cancel_left same
    cases turns with
    | deletion c rest => simp at same
    | transposition c d rest =>
      cases same
      exact .inr ⟨front, c, rest, rfl⟩
    | replacement c rest listed =>
      cases same
      exact .inl ⟨c, by simp, listed⟩
    | insertion rest listed => simp at same
  · rintro (⟨c, member, listed⟩ | ⟨front, c, back, rfl⟩)
    · obtain ⟨front, back, rfl⟩ := List.append_of_mem member
      exact ⟨replacement, front, c :: back, c :: back, rfl, rfl, .replacement c back listed⟩
    · exact ⟨transposition, front, c :: c :: back, c :: c :: back, rfl, rfl, .transposition c c back⟩

-- The letter that goes must be one that can be written, or no slip brings it back.
theorem Makes.back (makes : slip.Makes word made) (letters : ∀ c ∈ word, c ∈ alphabet) :
    ∃ slip : Slip, slip.Makes made word := by
  obtain ⟨front, rest, turned, rfl, rfl, turns⟩ := makes
  cases turns with
  | deletion c => exact ⟨insertion, front, _, _, rfl, rfl, .insertion _ (letters c (by simp))⟩
  | transposition c d => exact ⟨transposition, front, _, _, rfl, rfl, .transposition d c _⟩
  | replacement c => exact ⟨replacement, front, _, _, rfl, rfl, .replacement _ _ (letters c (by simp))⟩
  | insertion => exact ⟨deletion, front, _, _, rfl, rfl, .deletion _ _⟩

end Slip

theorem mem_edits {word made : List Char} : made ∈ edits word ↔ ∃ slip : Slip, slip.Makes word made := by
  simp only [← Slip.mem_edits, edits, List.mem_append]
  constructor
  · rintro (((member | member) | member) | member)
    · exact ⟨.deletion, member⟩
    · exact ⟨.transposition, member⟩
    · exact ⟨.replacement, member⟩
    · exact ⟨.insertion, member⟩
  · rintro ⟨slip, member⟩
    cases slip with
    | deletion => exact .inl (.inl (.inl member))
    | transposition => exact .inl (.inl (.inr member))
    | replacement => exact .inl (.inr member)
    | insertion => exact .inr member

end Concord.Spelling
