import Concord.Text.Runs
import Mathlib.Data.List.TakeWhile

namespace Concord.Text

-- A text and its runs in order. A run ends where a character is dropped or where the text ends, so it cannot
-- be longer.
inductive Splits (keep : Char → Bool) : List Char → List (List Char) → Prop where
  | done : Splits keep [] []
  | drop {c : Char} {rest : List Char} {found : List (List Char)} (dropped : keep c = false)
      (later : Splits keep rest found) : Splits keep (c :: rest) found
  | run {word rest : List Char} {found : List (List Char)} (nonempty : word ≠ [])
      (kept : ∀ c ∈ word, keep c = true) (ends : ∀ c ∈ rest.head?, keep c = false)
      (later : Splits keep rest found) : Splits keep (word ++ rest) (word :: found)

variable {keep : Char → Bool} {text left right rest word : List Char} {found others : List (List Char)} {c : Char}

namespace RunReader

theorem read_kept (kept : keep c = true) (reader : RunReader) :
    read keep reader c = { reader with current := c :: reader.current } := if_pos kept

theorem read_dropped (dropped : keep c = false) (reader : RunReader) : read keep reader c = reader.close :=
  if_neg (Bool.eq_false_iff.mp dropped)

theorem close_open (finished : List (List Char)) (current : List Char) (nonempty : current ≠ []) :
    close ⟨finished, current⟩ = ⟨current.reverse :: finished, []⟩ := by
  unfold close
  rw [if_neg (mt List.isEmpty_iff.mp nonempty)]

theorem foldl_kept (reader : RunReader) (kept : ∀ c ∈ word, keep c = true) :
    word.foldl (read keep) reader = { reader with current := word.reverse ++ reader.current } := by
  induction word generalizing reader with
  | nil => rfl
  | cons c word step =>
    rw [List.foldl_cons, read_kept (kept c List.mem_cons_self), step _ fun d member => kept d (List.mem_cons_of_mem _ member)]
    simp

theorem finished_behind (finished : List (List Char)) (current text : List Char) :
    (text.foldl (read keep) ⟨finished, current⟩).close.finished =
      (text.foldl (read keep) ⟨[], current⟩).close.finished ++ finished := by
  induction text generalizing finished current with
  | nil => cases current <;> simp [close]
  | cons c text step =>
    rw [List.foldl_cons, List.foldl_cons]
    cases kept : keep c with
    | true =>
      rw [read_kept kept, read_kept kept]
      exact step finished (c :: current)
    | false =>
      rw [read_dropped kept, read_dropped kept]
      cases current with
      | nil => exact step finished []
      | cons d current =>
        rw [close_open _ _ (List.cons_ne_nil d current), close_open _ _ (List.cons_ne_nil d current),
          step (_ :: finished), step [_], List.append_assoc]
        rfl

end RunReader

theorem runs_drop (dropped : keep c = false) (rest : List Char) : runs keep (c :: rest) = runs keep rest := by
  unfold runs
  rw [List.foldl_cons, RunReader.read_dropped dropped]
  rfl

theorem runs_last (nonempty : word ≠ []) (kept : ∀ c ∈ word, keep c = true) : runs keep word = [word] := by
  unfold runs
  rw [RunReader.foldl_kept _ kept]
  simp [RunReader.close, nonempty]

theorem runs_run (nonempty : word ≠ []) (kept : ∀ c ∈ word, keep c = true) (dropped : keep c = false)
    (rest : List Char) : runs keep (word ++ c :: rest) = word :: runs keep rest := by
  unfold runs
  rw [List.foldl_append, RunReader.foldl_kept _ kept, List.foldl_cons]
  rw [RunReader.read_dropped dropped, List.append_nil,
    RunReader.close_open [] word.reverse (List.reverse_ne_nil_iff.mpr nonempty), List.reverse_reverse,
    RunReader.finished_behind, List.reverse_append]
  rfl

theorem Splits.runs_eq (splits : Splits keep text found) : runs keep text = found := by
  induction splits with
  | done => rfl
  | drop dropped _ step => rw [runs_drop dropped, step]
  | @run word rest found nonempty kept ends _ step =>
    cases rest with
    | nil =>
      rw [List.append_nil, runs_last nonempty kept, ← step]
      rfl
    | cons c rest =>
      have dropped := ends c rfl
      rw [runs_run nonempty kept dropped, ← step, runs_drop dropped]

theorem dropWhile_stops (first : c ∈ (text.dropWhile keep).head?) : keep c = false := by
  have stops := List.head?_dropWhile_not keep text
  rwa [Option.mem_def.mp first] at stops

theorem Splits.stretch (kept : keep c = true) (later : Splits keep ((c :: rest).dropWhile keep) found) :
    Splits keep (c :: rest) ((c :: rest).takeWhile keep :: found) := by
  have nonempty : (c :: rest).takeWhile keep ≠ [] := by
    rw [List.takeWhile_cons_of_pos kept]
    exact List.cons_ne_nil _ _
  have whole := Splits.run nonempty (fun _ member => List.mem_takeWhile_imp member)
    (fun _ first => dropWhile_stops first) later
  rwa [List.takeWhile_append_dropWhile] at whole

theorem exists_splits (keep : Char → Bool) (text : List Char) : ∃ found, Splits keep text found := by
  -- What is left behind a run is shorter, but it is no tail that a structural induction would offer.
  induction count : text.length using Nat.strongRecOn generalizing text with
  | ind length step =>
    cases text with
    | nil => exact ⟨[], .done⟩
    | cons c rest =>
      have shorter : rest.length < length := by rw [← count]; exact Nat.lt_succ_self _
      cases kept : keep c with
      | true =>
        have left := List.length_dropWhile_le keep rest
        rw [← List.dropWhile_cons_of_pos kept] at left
        obtain ⟨found, later⟩ := step _ (Nat.lt_of_le_of_lt left shorter) _ rfl
        exact ⟨_, later.stretch kept⟩
      | false =>
        obtain ⟨found, later⟩ := step _ shorter rest rfl
        exact ⟨found, .drop kept later⟩

theorem runs_splits (keep : Char → Bool) (text : List Char) : Splits keep text (runs keep text) := by
  obtain ⟨found, splits⟩ := exists_splits keep text
  rwa [splits.runs_eq]

theorem Splits.append (splits : Splits keep left found) (dropped : keep c = false)
    (behind : Splits keep right others) : Splits keep (left ++ c :: right) (found ++ others) := by
  induction splits with
  | done => exact .drop dropped behind
  | drop dropped' _ step => exact .drop dropped' step
  | @run word rest found nonempty kept ends _ step =>
    rw [List.append_assoc]
    refine .run nonempty kept ?_ step
    cases rest with
    | nil => simpa using dropped
    | cons d rest => exact ends

theorem runs_separated (dropped : keep c = false) (left right : List Char) :
    runs keep (left ++ c :: right) = runs keep left ++ runs keep right :=
  ((runs_splits keep left).append dropped (runs_splits keep right)).runs_eq

theorem Splits.legible (splits : Splits keep text found) :
    ∀ word ∈ found, word ≠ [] ∧ ∀ c ∈ word, keep c = true := by
  induction splits with
  | done => simp
  | drop _ _ step => exact step
  | run nonempty kept _ _ step =>
    intro other member
    rcases List.mem_cons.mp member with rfl | later
    · exact ⟨nonempty, kept⟩
    · exact step other later

theorem Splits.map {change : Char → Char} (same : ∀ c, keep (change c) = keep c) (splits : Splits keep text found) :
    Splits keep (text.map change) (found.map (List.map change)) := by
  induction splits with
  | done => exact .done
  | drop dropped _ step => exact .drop ((same _).trans dropped) step
  | @run word rest found nonempty kept ends _ step =>
    rw [List.map_append, List.map_cons]
    refine .run (by simpa using nonempty) ?_ ?_ step
    · intro c member
      obtain ⟨d, inside, rfl⟩ := List.mem_map.mp member
      exact (same d).trans (kept d inside)
    · intro c first
      rw [List.head?_map] at first
      obtain ⟨d, ahead, rfl⟩ := Option.map_eq_some_iff.mp first
      exact (same d).trans (ends d ahead)

end Concord.Text
