import Concord.Text.Lines
import Concord.Proofs.Text.Trimming

namespace Concord.Text

variable {line left right rest text : List Char}

inductive WholeLines : List Char → Prop where
  | nil : WholeLines []
  | line {line rest : List Char} (inside : '\n' ∉ line) (others : WholeLines rest) :
      WholeLines (line ++ '\n' :: rest)

theorem WholeLines.append {first second : List Char} (whole : WholeLines first)
    (others : WholeLines second) : WholeLines (first ++ second) := by
  induction whole with
  | nil => exact others
  | @line line rest inside _ step =>
    rw [List.append_assoc, List.cons_append]
    exact .line inside step

def Ended (text : String) : Prop := text = "" ∨ ∃ front, text = front ++ "\n"

theorem WholeLines.ended (whole : WholeLines text) : Ended (String.ofList text) := by
  induction whole with
  | nil => exact Or.inl rfl
  | @line line rest _ _ step =>
    right
    rcases step with none | ⟨front, same⟩
    · obtain rfl : rest = [] := by simpa using none
      exact ⟨String.ofList line, by simp⟩
    · refine ⟨String.ofList (line ++ '\n' :: front.toList), ?_⟩
      have ends : rest = front.toList ++ ['\n'] := by simpa using congrArg String.toList same
      simp [ends, ← String.toList_inj]

section Trimming

end Trimming

section Reading

def Unbroken (line : List Char) : Prop := ∀ c ∈ line, c ≠ '\n' ∧ c ≠ '\r'

instance (line : List Char) : Decidable (Unbroken line) := List.decidableBAll _ line

theorem Unbroken.append (first : Unbroken left) (second : Unbroken right) : Unbroken (left ++ right) :=
  List.forall_mem_append.mpr ⟨first, second⟩

theorem unbroken_replicate (count : Nat) {c : Char} (inside : c ≠ '\n' ∧ c ≠ '\r') :
    Unbroken (List.replicate count c) := by
  intro d member
  rw [List.eq_of_mem_replicate member]
  exact inside

theorem unbroken_number (number : Nat) : Unbroken (toString number).toList := by
  intro c member
  change c ∈ (Nat.repr number).toList at member
  rw [Nat.toList_repr] at member
  have digit := Nat.isDigit_of_mem_toDigits (by decide) (by decide) member
  constructor
  · rintro rfl
    exact absurd digit (by decide)
  · rintro rfl
    exact absurd digit (by decide)

namespace LineReader

theorem foldl_inside (reader : LineReader) (inside : '\n' ∉ line) :
    line.foldl read reader = { reader with current := line.reverse ++ reader.current } := by
  induction line generalizing reader with
  | nil => rfl
  | cons c line step =>
    have going : read reader c = { reader with current := c :: reader.current } :=
      if_neg (List.ne_of_not_mem_cons inside).symm
    rw [List.foldl_cons, going, step _ (List.not_mem_of_not_mem_cons inside), List.reverse_cons, List.append_assoc]
    rfl

theorem read_feed (reader : LineReader) :
    read reader '\n' = { finished := endedLine reader.current :: reader.finished } := if_pos rfl

theorem close_behind (finished : List (List Char)) (current text : List Char) :
    (text.foldl read ⟨finished, current⟩).close = finished.reverse ++ (text.foldl read ⟨[], current⟩).close := by
  induction text generalizing finished current with
  | nil => cases current <;> simp [close]
  | cons c text step =>
    rw [List.foldl_cons, List.foldl_cons]
    by_cases feed : c = '\n'
    · subst feed
      rw [read_feed, read_feed, step, step [_]]
      simp
    · have going (lines : List (List Char)) : read ⟨lines, current⟩ c = ⟨lines, c :: current⟩ := if_neg feed
      rw [going, going, step]

end LineReader

theorem endedLine_unbroken (unbroken : Unbroken line) : endedLine line.reverse = line := by
  unfold endedLine
  split
  · next ended =>
    have member : '\r' ∈ line := by
      rw [← List.mem_reverse, ended]
      exact List.mem_cons_self
    exact absurd rfl (unbroken _ member).2
  · exact List.reverse_reverse line

theorem lines_ended (unbroken : Unbroken line) (rest : List Char) :
    lines (String.ofList (line ++ '\n' :: rest)) = String.ofList line :: lines (String.ofList rest) := by
  have inside : '\n' ∉ line := fun member => (unbroken _ member).1 rfl
  unfold lines
  rw [String.toList_ofList, String.toList_ofList, List.foldl_append, LineReader.foldl_inside _ inside,
    List.foldl_cons, LineReader.read_feed, List.append_nil, endedLine_unbroken unbroken, LineReader.close_behind]
  rfl

theorem lines_last (unbroken : Unbroken line) (nonempty : line ≠ []) :
    lines (String.ofList line) = [String.ofList line] := by
  have inside : '\n' ∉ line := fun member => (unbroken _ member).1 rfl
  unfold lines
  rw [String.toList_ofList, LineReader.foldl_inside _ inside]
  simp [LineReader.close, nonempty]

theorem lines_intercalate {texts : List String} (each : ∀ text ∈ texts, text ≠ "" ∧ Unbroken text.toList) :
    lines ("\n".intercalate texts) = texts := by
  induction texts with
  | nil => rfl
  | cons text texts step =>
    obtain ⟨⟨nonempty, unbroken⟩, others⟩ := List.forall_mem_cons.mp each
    cases texts with
    | nil =>
      have last := lines_last unbroken (mt String.toList_eq_nil_iff.mp nonempty)
      rwa [String.ofList_toList] at last
    | cons next texts =>
      have joined : "\n".intercalate (text :: next :: texts) =
          String.ofList (text.toList ++ '\n' :: ("\n".intercalate (next :: texts)).toList) := by
        simp [← String.toList_inj, String.toList_intercalate]
      rw [joined, lines_ended unbroken, String.ofList_toList, String.ofList_toList, step others]

end Reading
end Concord.Text
