import Concord.Proofs.Tree.Values
import Concord.Tree.Render

namespace Concord

-- A text without the marks that a bracketed tree is written with. The empty text is no exception: the
-- marks around it show where it stands.
def Unmarked (text : String) : Prop := ∀ c ∈ text.toList, c ≠ ' ' ∧ c ≠ '(' ∧ c ≠ ')'

instance (text : String) : Decidable (Unmarked text) := List.decidableBAll _ text.toList

namespace Tree

def Stops (rest : List Char) : Prop := ∀ c ∈ rest.head?, c = ' ' ∨ c = ')'

variable {word word' : String} {rest rest' : List Char}

theorem stops_blank (rest : List Char) : Stops (' ' :: rest) := by
  intro c first
  exact .inl (Option.some.inj first).symm

theorem stops_closed (rest : List Char) : Stops (')' :: rest) := by
  intro c first
  exact .inr (Option.some.inj first).symm

theorem unmarked_apart {left right : List Char} (unmarked : ∀ c ∈ left, c ≠ ' ' ∧ c ≠ '(' ∧ c ≠ ')')
    (unmarked' : ∀ c ∈ right, c ≠ ' ' ∧ c ≠ '(' ∧ c ≠ ')') (stops : Stops rest) (stops' : Stops rest')
    (same : left ++ rest = right ++ rest') : left = right ∧ rest = rest' := by
  induction left generalizing right with
  | nil =>
    cases right with
    | nil => exact ⟨rfl, same⟩
    | cons d right =>
      have marked := stops d (by rw [show rest = d :: right ++ rest' from same]; rfl)
      obtain ⟨noBlank, -, noClose⟩ := unmarked' d List.mem_cons_self
      exact absurd marked (by simp [noBlank, noClose])
  | cons c left step =>
    cases right with
    | nil =>
      have marked := stops' c (by rw [show rest' = c :: left ++ rest from same.symm]; rfl)
      obtain ⟨noBlank, -, noClose⟩ := unmarked c List.mem_cons_self
      exact absurd marked (by simp [noBlank, noClose])
    | cons d right =>
      obtain ⟨rfl, later⟩ := List.cons.inj same
      obtain ⟨rfl, others⟩ := step (List.forall_mem_cons.mp unmarked).2 (List.forall_mem_cons.mp unmarked').2 later
      exact ⟨rfl, others⟩

theorem word_apart (unmarked : Unmarked word) (unmarked' : Unmarked word') (stops : Stops rest)
    (stops' : Stops rest') (same : word.toList ++ rest = word'.toList ++ rest') : word = word' ∧ rest = rest' := by
  obtain ⟨letters, others⟩ := unmarked_apart unmarked unmarked' stops stops' same
  exact ⟨String.toList_injective letters, others⟩

theorem word_no_bracket (unmarked : Unmarked word) (stops : Stops rest) :
    word.toList ++ rest ≠ '(' :: rest' := by
  intro same
  cases letters : word.toList with
  | nil =>
    rw [letters] at same
    have marked := stops '(' (by rw [show rest = '(' :: rest' from same]; rfl)
    exact absurd marked (by decide)
  | cons c others =>
    rw [letters] at same
    exact (unmarked c (by rw [letters]; exact List.mem_cons_self)).2.1 (List.cons.inj same).1

theorem toList_branch (symbol : String) (extent : Extent) (children : List Tree) (rest : List Char) :
    (branch symbol extent children).bracketed.toList ++ rest =
      '(' :: (symbol.toList ++ ((bracketedAll children).toList ++ ')' :: rest)) := by
  simp [bracketed]

theorem toList_children (tree : Tree) (others : List Tree) (rest : List Char) :
    (bracketedAll (tree :: others)).toList ++ rest =
      ' ' :: (tree.bracketed.toList ++ ((bracketedAll others).toList ++ rest)) := by
  simp [bracketedAll]

theorem children_stop (children : List Tree) (rest : List Char) :
    Stops ((bracketedAll children).toList ++ ')' :: rest) := by
  cases children with
  | nil => exact stops_closed rest
  | cons tree others =>
    rw [toList_children]
    exact stops_blank _

-- By recursion on the first tree and its children. What comes behind a tree is part of the statement, as a
-- child is followed by its siblings and the closing bracket.
mutual

theorem bracketed_apart (a b : Tree) {rest rest' : List Char} (unmarked : ∀ value ∈ a.values, Unmarked value)
    (unmarked' : ∀ value ∈ b.values, Unmarked value) (stops : Stops rest) (stops' : Stops rest')
    (same : a.bracketed.toList ++ rest = b.bracketed.toList ++ rest') : a.bare = b.bare ∧ rest = rest' :=
  match a, b with
  | leaf word extent, leaf word' extent' => by
    obtain ⟨rfl, others⟩ := word_apart (unmarked word (by simp [values])) (unmarked' word' (by simp [values]))
      stops stops' same
    exact ⟨rfl, others⟩
  | leaf word extent, branch symbol extent' children => by
    rw [toList_branch] at same
    exact absurd same (word_no_bracket (unmarked word (by simp [values])) stops)
  | branch symbol extent children, leaf word extent' => by
    rw [toList_branch] at same
    exact absurd same.symm (word_no_bracket (unmarked' word (by simp [values])) stops')
  | branch symbol extent children, branch symbol' extent' children' => by
    rw [toList_branch, toList_branch] at same
    obtain ⟨top, below⟩ := List.forall_mem_cons.mp unmarked
    obtain ⟨top', below'⟩ := List.forall_mem_cons.mp unmarked'
    obtain ⟨rfl, later⟩ := word_apart top top' (children_stop children rest) (children_stop children' rest')
      (List.cons.inj same).2
    obtain ⟨parts, others⟩ := bracketedAll_apart children children' below below' later
    exact ⟨by simp only [bare, parts], others⟩

theorem bracketedAll_apart (as bs : List Tree) {rest rest' : List Char}
    (unmarked : ∀ value ∈ valuesOfAll as, Unmarked value) (unmarked' : ∀ value ∈ valuesOfAll bs, Unmarked value)
    (same : (bracketedAll as).toList ++ ')' :: rest = (bracketedAll bs).toList ++ ')' :: rest') :
    bareAll as = bareAll bs ∧ rest = rest' :=
  match as, bs with
  | [], [] => ⟨rfl, (List.cons.inj same).2⟩
  | [], b :: bs => by
    rw [toList_children] at same
    exact absurd (List.cons.inj same).1 (by decide)
  | a :: as, [] => by
    rw [toList_children] at same
    exact absurd (List.cons.inj same).1 (by decide)
  | a :: as, b :: bs => by
    rw [toList_children, toList_children] at same
    obtain ⟨here, later⟩ := List.forall_mem_append.mp unmarked
    obtain ⟨here', later'⟩ := List.forall_mem_append.mp unmarked'
    obtain ⟨head, behind⟩ := bracketed_apart a b here here' (children_stop as rest) (children_stop bs rest')
      (List.cons.inj same).2
    obtain ⟨tail, others⟩ := bracketedAll_apart as bs later later' behind
    exact ⟨by rw [bareAll, bareAll, head, tail], others⟩

end

mutual

theorem bracketed_bare : ∀ tree : Tree, tree.bare.bracketed = tree.bracketed
  | leaf _ _ => rfl
  | branch _ _ children => by rw [bare, bracketed, bracketed, bracketedAll_bare children]

theorem bracketedAll_bare : ∀ trees : List Tree, bracketedAll (bareAll trees) = bracketedAll trees
  | [] => rfl
  | tree :: rest => by rw [bareAll, bracketedAll, bracketedAll, bracketed_bare tree, bracketedAll_bare rest]

end

theorem bracketed_eq_iff {a b : Tree} (unmarked : ∀ value ∈ a.values, Unmarked value)
    (unmarked' : ∀ value ∈ b.values, Unmarked value) : a.bracketed = b.bracketed ↔ a.bare = b.bare := by
  constructor
  · intro same
    have ended : a.bracketed.toList ++ [] = b.bracketed.toList ++ [] := by rw [same]
    have nothing : Stops [] := nofun
    exact (bracketed_apart a b unmarked unmarked' nothing nothing ended).1
  · intro same
    rw [← bracketed_bare a, same, bracketed_bare b]

end Tree
end Concord
