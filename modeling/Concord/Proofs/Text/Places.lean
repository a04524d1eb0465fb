import Concord.Proofs.Text.Runs
import Mathlib.Data.Set.Card

namespace Concord.Text

-- The word is a run that neither the characters before it nor those after it make longer.
structure Stands (keep : Char → Bool) (before word after : List Char) : Prop where
  nonempty : word ≠ []
  kept : ∀ c ∈ word, keep c = true
  starts : ∀ c ∈ before.getLast?, keep c = false
  ends : ∀ c ∈ after.head?, keep c = false

def places (keep : Char → Bool) (word text : List Char) : Set (List Char) :=
  {before | ∃ after, before ++ word ++ after = text ∧ Stands keep before word after}

variable {keep : Char → Bool} {text rest word run before after : List Char} {found : List (List Char)} {c : Char}

theorem takeWhile_kept (kept : ∀ c ∈ word, keep c = true) (ends : ∀ c ∈ after.head?, keep c = false) :
    (word ++ after).takeWhile keep = word := by
  rw [List.takeWhile_append_of_pos kept]
  cases after with
  | nil => rw [List.takeWhile_nil, List.append_nil]
  | cons c after => rw [List.takeWhile_cons_of_neg (Bool.eq_false_iff.mp (ends c rfl)), List.append_nil]

theorem Stands.opens (stands : Stands keep before word after) : ∃ c ∈ (word ++ after).head?, keep c = true := by
  cases word with
  | nil => exact absurd rfl stands.nonempty
  | cons c word => exact ⟨c, rfl, stands.kept c List.mem_cons_self⟩

theorem places_nil : places keep word [] = ∅ := by
  apply Set.eq_empty_iff_forall_notMem.mpr
  rintro before ⟨after, whole, stands⟩
  obtain ⟨c, first, -⟩ := stands.opens
  rw [List.append_assoc] at whole
  rw [(List.append_eq_nil_iff.mp whole).2] at first
  cases first

theorem places_drop (dropped : keep c = false) (word rest : List Char) :
    places keep word (c :: rest) = (c :: ·) '' places keep word rest := by
  ext before
  constructor
  · rintro ⟨after, whole, stands⟩
    cases before with
    | nil =>
      obtain ⟨d, first, kept⟩ := stands.opens
      rw [List.nil_append] at whole
      rw [whole] at first
      cases first
      rw [dropped] at kept
      cases kept
    | cons d before =>
      cases whole
      refine ⟨before, ⟨after, rfl, stands.nonempty, stands.kept, ?_, stands.ends⟩, rfl⟩
      intro e last
      apply stands.starts
      rw [List.getLast?_cons, Option.mem_def.mp last]
      rfl
  · rintro ⟨before, ⟨after, whole, stands⟩, rfl⟩
    refine ⟨after, congrArg (c :: ·) whole, stands.nonempty, stands.kept, ?_, stands.ends⟩
    intro d last
    rw [List.getLast?_cons] at last
    cases before with
    | nil =>
      cases last
      exact dropped
    | cons e before =>
      apply stands.starts
      rw [List.getLast?_cons] at last ⊢
      exact last

theorem mem_places_run (nonempty : run ≠ []) (kept : ∀ c ∈ run, keep c = true)
    (ends : ∀ c ∈ rest.head?, keep c = false) :
    before ∈ places keep word (run ++ rest) ↔
      before = [] ∧ word = run ∨ ∃ inner ∈ places keep word rest, run ++ inner = before := by
  constructor
  · rintro ⟨after, whole, stands⟩
    rw [List.append_assoc] at whole
    -- The word starts inside the run, and then with it, or behind the run.
    rcases List.append_eq_append_iff.mp whole with ⟨tail, rfl, behind⟩ | ⟨inner, rfl, behind⟩
    · left
      have empty : before = [] := by
        rw [← List.getLast?_eq_none_iff, Option.eq_none_iff_forall_ne_some]
        intro c last
        have inside := kept c (List.mem_append_left _ (List.mem_of_getLast? last))
        rw [stands.starts c last] at inside
        cases inside
      subst empty
      rw [List.nil_append] at kept ⊢
      have same := takeWhile_kept kept ends
      rw [← behind, takeWhile_kept stands.kept stands.ends] at same
      exact ⟨rfl, same⟩
    · right
      refine ⟨inner, ⟨after, by rw [List.append_assoc, behind], stands.nonempty, stands.kept, ?_, stands.ends⟩, rfl⟩
      intro c last
      apply stands.starts
      rw [List.getLast?_append, Option.mem_def.mp last]
      rfl
  · rintro (⟨rfl, rfl⟩ | ⟨inner, ⟨after, rfl, stands⟩, rfl⟩)
    · exact ⟨rest, rfl, nonempty, kept, by simp, ends⟩
    · refine ⟨after, by simp, stands.nonempty, stands.kept, ?_, stands.ends⟩
      intro c last
      cases inner with
      | nil =>
        obtain ⟨d, first, opens⟩ := stands.opens
        rw [ends d first] at opens
        cases opens
      | cons e inner =>
        apply stands.starts
        rwa [List.getLast?_append, List.getLast?_cons, Option.some_or, ← List.getLast?_cons] at last

theorem encard_places_run (nonempty : run ≠ []) (kept : ∀ c ∈ run, keep c = true)
    (ends : ∀ c ∈ rest.head?, keep c = false) :
    (places keep word (run ++ rest)).encard = (places keep word rest).encard + if run = word then 1 else 0 := by
  have later : ((run ++ ·) '' places keep word rest).encard = (places keep word rest).encard :=
    (List.append_right_injective run).encard_image _
  have outside : [] ∉ (run ++ ·) '' places keep word rest := by
    rintro ⟨inner, -, whole⟩
    exact nonempty (List.append_eq_nil_iff.mp whole).1
  split
  · next same =>
    have all : places keep word (run ++ rest) = insert [] ((run ++ ·) '' places keep word rest) := by
      ext before
      rw [mem_places_run nonempty kept ends, Set.mem_insert_iff, and_iff_left same.symm]
      rfl
    rw [all, Set.encard_insert_of_notMem outside, later]
  · next differs =>
    have all : places keep word (run ++ rest) = (run ++ ·) '' places keep word rest := by
      ext before
      rw [mem_places_run nonempty kept ends, or_iff_right (fun both => differs both.2.symm)]
      rfl
    rw [all, later, add_zero]

theorem Splits.encard_places (splits : Splits keep text found) (word : List Char) :
    (places keep word text).encard = found.count word := by
  induction splits with
  | done => rw [places_nil, Set.encard_empty, List.count_nil, Nat.cast_zero]
  | drop dropped _ step => rw [places_drop dropped, List.cons_injective.encard_image, step]
  | run nonempty kept ends _ step =>
    rw [encard_places_run nonempty kept ends, step, List.count_cons]
    split <;> simp_all

theorem count_runs (keep : Char → Bool) (word text : List Char) :
    ((runs keep text).count word : ℕ∞) = (places keep word text).encard :=
  ((runs_splits keep text).encard_places word).symm

end Concord.Text
