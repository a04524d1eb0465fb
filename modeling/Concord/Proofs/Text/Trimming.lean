import Concord.Proofs.Text.Runs
import Concord.Text.Words

namespace Concord.Text

structure Trims (keep : Char → Bool) (word inner : List Char) : Prop where
  whole : ∃ left right, left ++ inner ++ right = word ∧ (∀ c ∈ left, keep c = false) ∧ ∀ c ∈ right, keep c = false
  starts : ∀ c ∈ inner.head?, keep c = true
  ends : ∀ c ∈ inner.getLast?, keep c = true

variable {keep : Char → Bool} {word inner line left right : List Char}

theorem trimTo_around (before : ∀ c ∈ left, (!keep c) = true) (behind : ∀ c ∈ right, (!keep c) = true) :
    trimTo keep (left ++ line ++ right) = trimTo keep line := by
  unfold trimTo
  rw [List.append_assoc, List.dropWhile_append_of_pos before, List.dropWhile_append]
  split
  · next none => rw [List.isEmpty_iff.mp none, List.dropWhile_eq_nil_iff.mpr behind]
  · have turned : ∀ c ∈ right.reverse, (!keep c) = true := fun c member =>
      behind c (List.mem_reverse.mp member)
    rw [List.reverse_append, List.dropWhile_append_of_pos turned]

theorem dropWhile_started (starts : ∀ c ∈ word.head?, keep c = true) : (word.dropWhile fun c => !keep c) = word := by
  cases word with
  | nil => rfl
  | cons c word =>
    apply List.dropWhile_cons_of_neg
    simp [starts c rfl]

theorem trimTo_self (starts : ∀ c ∈ word.head?, keep c = true) (ends : ∀ c ∈ word.getLast?, keep c = true) :
    trimTo keep word = word := by
  have turned : ∀ c ∈ word.reverse.head?, keep c = true := by
    rwa [List.head?_reverse]
  unfold trimTo
  rw [dropWhile_started starts, dropWhile_started turned, List.reverse_reverse]

theorem Trims.trimTo_eq (trims : Trims keep word inner) : trimTo keep word = inner := by
  obtain ⟨left, right, rfl, before, behind⟩ := trims.whole
  rw [trimTo_around, trimTo_self trims.starts trims.ends]
  · intro c member
    rw [before c member]
    rfl
  · intro c member
    rw [behind c member]
    rfl

theorem takeWhile_dropped {c : Char} (member : c ∈ word.takeWhile fun c => !keep c) : keep c = false := by
  have dropped := List.mem_takeWhile_imp member
  simpa using dropped

theorem dropWhile_kept (word : List Char) {c : Char} (first : c ∈ (word.dropWhile fun c => !keep c).head?) :
    keep c = true := by
  have stops := dropWhile_stops first
  simpa using stops

theorem trimTo_trims (keep : Char → Bool) (word : List Char) : Trims keep word (trimTo keep word) := by
  let rest := word.dropWhile fun c => !keep c
  -- The end is trimmed on the word turned around, so both of its parts are turned back.
  have turned := List.takeWhile_append_dropWhile (l := rest.reverse) (p := fun c => !keep c)
  have parts : trimTo keep word ++ (rest.reverse.takeWhile fun c => !keep c).reverse = rest := by
    have whole := congrArg List.reverse turned
    rwa [List.reverse_append, List.reverse_reverse] at whole
  refine ⟨⟨word.takeWhile fun c => !keep c, (rest.reverse.takeWhile fun c => !keep c).reverse, ?_, ?_, ?_⟩, ?_, ?_⟩
  · rw [List.append_assoc, parts, List.takeWhile_append_dropWhile]
  · exact fun c member => takeWhile_dropped member
  · exact fun c member => takeWhile_dropped (List.mem_reverse.mp member)
  · intro c first
    apply dropWhile_kept word
    change c ∈ rest.head?
    rw [← parts, List.head?_append, Option.mem_def.mp first]
    rfl
  · intro c last
    apply dropWhile_kept rest.reverse
    rwa [← List.getLast?_reverse]

theorem Trims.filter (trims : Trims keep word inner) : word.filter keep = inner.filter keep := by
  obtain ⟨left, right, rfl, before, behind⟩ := trims.whole
  have none {side : List Char} (dropped : ∀ c ∈ side, keep c = false) : side.filter keep = [] :=
    List.filter_eq_nil_iff.mpr fun c member => Bool.eq_false_iff.mp (dropped c member)
  rw [List.filter_append, List.filter_append, none before, none behind, List.nil_append, List.append_nil]

theorem Trims.eq_nil_iff (trims : Trims keep word inner) : inner = [] ↔ word.any keep = false := by
  rw [List.any_eq_false]
  constructor
  · rintro rfl c member kept
    have inside : c ∈ word.filter keep := List.mem_filter.mpr ⟨member, kept⟩
    rw [trims.filter] at inside
    cases inside
  · intro none
    cases inner with
    | nil => rfl
    | cons c inner =>
      obtain ⟨left, right, rfl, -, -⟩ := trims.whole
      exact absurd (trims.starts c rfl) (none c (by simp))

theorem Trims.map {change : Char → Char} (same : ∀ c, keep (change c) = keep c) (trims : Trims keep word inner) :
    Trims keep (word.map change) (inner.map change) := by
  have dropped {side : List Char} (out : ∀ c ∈ side, keep c = false) : ∀ c ∈ side.map change, keep c = false := by
    intro c member
    obtain ⟨d, inside, rfl⟩ := List.mem_map.mp member
    rw [same, out d inside]
  have kept {first : Option Char} (up : ∀ c ∈ first, keep c = true) : ∀ c ∈ first.map change, keep c = true := by
    intro c member
    obtain ⟨d, inside, rfl⟩ := Option.map_eq_some_iff.mp member
    rw [same, up d inside]
  obtain ⟨left, right, rfl, before, behind⟩ := trims.whole
  refine ⟨⟨left.map change, right.map change, by simp, dropped before, dropped behind⟩, ?_, ?_⟩
  · rw [List.head?_map]
    exact kept trims.starts
  · rw [List.getLast?_map]
    exact kept trims.ends

end Concord.Text
