import Concord.Text.Search
import Mathlib.Data.List.Infix

namespace Concord.Text

theorem occurs_iff {word letters : List Char} : occurs word letters = true ↔ word <:+: letters := by
  induction letters with
  | nil => rw [occurs, List.isEmpty_iff, List.infix_nil]
  | cons c rest step => rw [occurs, Bool.or_eq_true, List.isPrefixOf_iff_prefix, step, List.infix_cons_iff]

theorem contains_iff {text word : String} : contains text word = true ↔ word.toList <:+: text.toList :=
  occurs_iff

def wordAt? (words : List String) (letters : List Char) : Option String :=
  words.find? fun word => word.toList.isPrefixOf letters

def Apart (words : List String) : Prop :=
  ∀ word ∈ words, ∀ other ∈ words, word.toList <+: other.toList → word = other

instance (words : List String) : Decidable (Apart words) :=
  inferInstanceAs (Decidable (∀ word ∈ words, ∀ other ∈ words, word.toList <+: other.toList → word = other))

structure Leftmost (words : List String) (text : String) (before : List Char) (word : String)
    (after : List Char) : Prop where
  listed : word ∈ words
  whole : before ++ word.toList ++ after = text.toList
  first : ∀ other ∈ words, ∀ earlier later, earlier ++ other.toList ++ later = text.toList →
    before.length ≤ earlier.length

variable {words : List String} {letters before after : List Char} {text word : String}

theorem wordAt?_eq_none : wordAt? words letters = none ↔ ∀ word ∈ words, ¬ word.toList <+: letters := by
  simp only [wordAt?, List.find?_eq_none, List.isPrefixOf_iff_prefix]

theorem wordAt?_prefix (found : wordAt? words letters = some word) : word ∈ words ∧ word.toList <+: letters := by
  have begins := List.find?_some (p := fun word : String => word.toList.isPrefixOf letters) found
  exact ⟨List.mem_of_find?_eq_some found, List.isPrefixOf_iff_prefix.mp begins⟩

theorem wordAt?_apart (apart : Apart words) (listed : word ∈ words) (begins : word.toList <+: letters) :
    wordAt? words letters = some word := by
  cases found : wordAt? words letters with
  | none => exact absurd begins (wordAt?_eq_none.mp found word listed)
  | some other =>
    obtain ⟨member, ahead⟩ := wordAt?_prefix found
    rcases List.prefix_or_prefix_of_prefix ahead begins with inside | inside
    · rw [apart other member word listed inside]
    · rw [apart word listed other member inside]

theorem findFrom_nil (words : List String) : findFrom words [] = wordAt? words [] := by
  unfold findFrom wordAt?
  congr 1
  funext word
  cases word.toList <;> rfl

theorem findFrom_cons (words : List String) (c : Char) (rest : List Char) :
    findFrom words (c :: rest) = (wordAt? words (c :: rest)).or (findFrom words rest) := rfl

theorem findFrom_eq_none : findFrom words letters = none ↔ ∀ word ∈ words, ¬ word.toList <:+: letters := by
  induction letters with
  | nil => simp only [findFrom_nil, wordAt?_eq_none, List.prefix_nil, List.infix_nil]
  | cons c rest step =>
    simp only [findFrom_cons, Option.or_eq_none_iff, wordAt?_eq_none, step, List.infix_cons_iff, not_or]
    exact forall₂_and.symm

theorem findFrom_eq_some :
    findFrom words letters = some word ↔
      ∃ before rest, before ++ rest = letters ∧ wordAt? words rest = some word ∧
        ∀ earlier later, earlier ++ later = letters → earlier.length < before.length → wordAt? words later = none := by
  induction letters with
  | nil =>
    rw [findFrom_nil]
    constructor
    · intro found
      exact ⟨[], [], rfl, found, by simp⟩
    · rintro ⟨before, rest, whole, found, -⟩
      rwa [(List.append_eq_nil_iff.mp whole).2] at found
  | cons c rest step =>
    rw [findFrom_cons]
    cases here : wordAt? words (c :: rest) with
    | some other =>
      constructor
      · intro found
        exact ⟨[], c :: rest, rfl, here.trans found, by simp⟩
      · rintro ⟨before, behind, whole, found, none⟩
        cases before with
        | nil =>
          rw [List.nil_append] at whole
          rwa [whole, here] at found
        | cons d before =>
          rw [none [] _ rfl (by simp)] at here
          cases here
    | none =>
      rw [Option.none_or, step]
      constructor
      · rintro ⟨before, behind, rfl, found, none⟩
        refine ⟨c :: before, behind, rfl, found, ?_⟩
        intro earlier later whole shorter
        cases earlier with
        | nil =>
          rw [← here, ← whole]
          rfl
        | cons d earlier => exact none earlier later (List.cons.inj whole).2 (Nat.lt_of_succ_lt_succ shorter)
      · rintro ⟨before, behind, whole, found, none⟩
        cases before with
        | nil =>
          rw [List.nil_append] at whole
          rw [whole, here] at found
          cases found
        | cons d before =>
          cases whole
          refine ⟨before, behind, rfl, found, ?_⟩
          intro earlier later whole shorter
          exact none (c :: earlier) later (congrArg (c :: ·) whole) (Nat.succ_lt_succ shorter)

theorem leftmost?_eq_none : leftmost? words text = none ↔ ∀ word ∈ words, ¬ word.toList <:+: text.toList :=
  findFrom_eq_none

theorem leftmost?_eq_some :
    leftmost? words text = some word ↔
      ∃ before after, Leftmost words text before word after ∧ wordAt? words (word.toList ++ after) = some word := by
  unfold leftmost?
  rw [findFrom_eq_some]
  constructor
  · rintro ⟨before, rest, whole, found, none⟩
    obtain ⟨listed, after, rfl⟩ := wordAt?_prefix found
    refine ⟨before, after, ⟨listed, by simp [← whole], ?_⟩, found⟩
    intro other member earlier later same
    by_contra shorter
    rw [List.append_assoc] at same
    exact wordAt?_eq_none.mp (none _ _ same (by omega)) other member (List.prefix_append _ _)
  · rintro ⟨before, after, leftmost, found⟩
    refine ⟨before, word.toList ++ after, by simp [← leftmost.whole], found, ?_⟩
    intro earlier later whole shorter
    rw [wordAt?_eq_none]
    rintro other member ⟨rest, rfl⟩
    have bound := leftmost.first other member earlier rest (by rw [List.append_assoc, whole])
    omega

theorem leftmost?_apart (apart : Apart words) :
    leftmost? words text = some word ↔ ∃ before after, Leftmost words text before word after := by
  rw [leftmost?_eq_some]
  constructor
  · rintro ⟨before, after, leftmost, -⟩
    exact ⟨before, after, leftmost⟩
  · rintro ⟨before, after, leftmost⟩
    exact ⟨before, after, leftmost, wordAt?_apart apart leftmost.listed (List.prefix_append _ _)⟩

end Concord.Text
