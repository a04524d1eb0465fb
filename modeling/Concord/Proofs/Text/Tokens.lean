import Concord.Proofs.Text.Runs
import Concord.Proofs.Text.Trimming
import Concord.Proofs.Unicode.Classes
import Mathlib.Data.List.Forall2

namespace Concord.Text

open Unicode

-- The words stand in the text one after the other, without overlap and with anything between them.
inductive InOrder : List (List Char) → List Char → Prop where
  | done (gap : List Char) : InOrder [] gap
  | next (gap word : List Char) {rest : List Char} {words : List (List Char)} (later : InOrder words rest) :
      InOrder (word :: words) (gap ++ word ++ rest)

structure IsToken (word : List Char) : Prop where
  nonempty : word ≠ []
  unbroken : ∀ c ∈ word, isWhiteSpace c = false
  starts : ∀ c ∈ word.head?, isAlphanumeric c = true
  ends : ∀ c ∈ word.getLast?, isAlphanumeric c = true

-- The words between white space that have something alphanumeric in them give one token each, in their order.
-- A token is what is left of its word without the punctuation at both ends.
structure Tokenizes (sentence : List Char) (tokens : List (List Char)) : Prop where
  shape : ∀ token ∈ tokens, IsToken token
  order : InOrder tokens sentence
  words : ∃ words, Splits (fun c => !isWhiteSpace c) sentence words ∧
    List.Forall₂ (Trims isAlphanumeric) (words.filter (·.any isAlphanumeric)) tokens
  letters : tokens.flatten.filter isAlphanumeric = sentence.filter isAlphanumeric

variable {keep : Char → Bool} {text word blank : List Char} {words inner found : List (List Char)} {c : Char}

namespace InOrder

theorem behind (gap : List Char) (order : InOrder words text) : InOrder words (gap ++ text) := by
  cases order with
  | done => exact .done _
  | next before word later =>
    rw [List.append_assoc before, ← List.append_assoc, ← List.append_assoc]
    exact .next (gap ++ before) word later

theorem filter (chosen : List Char → Bool) (order : InOrder words text) : InOrder (words.filter chosen) text := by
  induction order with
  | done => exact .done _
  | next gap word later step =>
    rw [List.filter_cons]
    split
    · exact .next gap word step
    · exact step.behind _

theorem trims (order : InOrder words text) (cut : List.Forall₂ (Trims keep) words inner) : InOrder inner text := by
  induction order generalizing inner with
  | done gap =>
    cases cut
    exact .done gap
  | next gap word later step =>
    cases cut with
    | @cons _ token _ _ trimmed others =>
      obtain ⟨left, right, rfl, -, -⟩ := trimmed.whole
      have placed := InOrder.next (gap ++ left) token ((step others).behind right)
      simpa using placed

end InOrder

namespace Splits

theorem inOrder (splits : Splits keep text found) : InOrder found text := by
  induction splits with
  | done => exact .done []
  | drop _ _ step => exact step.behind [_]
  | @run word _ _ _ _ _ _ step => exact .next [] word step

theorem flatten (splits : Splits keep text found) : found.flatten = text.filter keep := by
  induction splits with
  | done => rfl
  | drop dropped _ step => rw [step, List.filter_cons_of_neg (Bool.eq_false_iff.mp dropped)]
  | run _ kept _ _ step => rw [List.flatten_cons, step, List.filter_append, List.filter_eq_self.mpr kept]

end Splits

theorem trimTo_nonempty (keep : Char → Bool) (words : List (List Char)) :
    List.Forall₂ (Trims keep) (words.filter (·.any keep)) ((words.map (trimTo keep)).filter fun word => !word.isEmpty) := by
  have same : ((fun word => !word.isEmpty) ∘ trimTo keep) = fun word => word.any keep := by
    funext word
    have empty := (trimTo_trims keep word).eq_nil_iff
    rw [← List.isEmpty_iff] at empty
    cases kept : word.any keep <;> simp_all
  rw [List.filter_map, same, List.forall₂_map_right_iff]
  exact List.forall₂_same.mpr fun word _ => trimTo_trims keep word

theorem filter_flatten_any (keep : Char → Bool) (words : List (List Char)) :
    (words.filter (·.any keep)).flatten.filter keep = words.flatten.filter keep := by
  induction words with
  | nil => rfl
  | cons word words step =>
    rw [List.filter_cons, List.flatten_cons, List.filter_append]
    split
    · rw [List.flatten_cons, List.filter_append, step]
    · next unkept =>
      have none : word.filter keep = [] := by simpa using unkept
      rw [none, List.nil_append, step]

theorem filter_flatten_trims (cut : List.Forall₂ (Trims keep) words inner) :
    words.flatten.filter keep = inner.flatten.filter keep := by
  induction cut with
  | nil => rfl
  | cons trimmed _ step =>
    rw [List.flatten_cons, List.flatten_cons, List.filter_append, List.filter_append, trimmed.filter, step]

def tokenLists (text : List Char) : List (List Char) :=
  ((runs (fun c => !isWhiteSpace c) text).map (trimTo isAlphanumeric)).filter fun word => !word.isEmpty

theorem toList_tokens (sentence : String) : (tokens sentence).map String.toList = tokenLists sentence.toList := by
  unfold tokens tokenLists
  rw [List.map_map]
  exact (List.map_congr_left fun _ _ => String.toList_ofList).trans (List.map_id _)

theorem map_toList_injective : Function.Injective (List.map String.toList) :=
  List.map_injective_iff.mpr fun _ _ => String.toList_injective

theorem tokenLists_tokenizes (text : List Char) : Tokenizes text (tokenLists text) := by
  have splits := runs_splits (fun c => !isWhiteSpace c) text
  have cut := trimTo_nonempty isAlphanumeric (runs (fun c => !isWhiteSpace c) text)
  refine ⟨?_, (splits.inOrder.filter _).trims cut, ⟨_, splits, cut⟩, ?_⟩
  · intro token member
    obtain ⟨chosen, nonempty⟩ := List.mem_filter.mp member
    obtain ⟨word, run, rfl⟩ := List.mem_map.mp chosen
    have trims := trimTo_trims isAlphanumeric word
    refine ⟨by simpa using nonempty, ?_, trims.starts, trims.ends⟩
    intro c inside
    obtain ⟨left, right, whole, -, -⟩ := trims.whole
    have kept := (splits.legible word run).2 c (by rw [← whole]; simp [inside])
    simpa using kept
  · unfold tokenLists
    rw [← filter_flatten_trims cut, filter_flatten_any, splits.flatten, List.filter_filter]
    apply List.filter_congr
    intro c _
    cases alphanumeric : isAlphanumeric c with
    | false => rfl
    | true => rw [isAlphanumeric_apart alphanumeric]; rfl

theorem tokenizes_iff : Tokenizes text found ↔ tokenLists text = found := by
  constructor
  · intro tokenizes
    obtain ⟨words, splits, cut⟩ := tokenizes.words
    have unique : Relator.RightUnique (Trims isAlphanumeric) := fun _ _ _ one other =>
      one.trimTo_eq.symm.trans other.trimTo_eq
    unfold tokenLists
    rw [splits.runs_eq]
    exact unique.forall₂ (trimTo_nonempty isAlphanumeric words) cut
  · rintro rfl
    exact tokenLists_tokenizes text

theorem tokenLists_leading (white : ∀ c ∈ blank, isWhiteSpace c = true) (rest : List Char) :
    tokenLists (blank ++ rest) = tokenLists rest := by
  induction blank with
  | nil => rfl
  | cons c blank step =>
    obtain ⟨first, later⟩ := List.forall_mem_cons.mp white
    rw [← step later]
    unfold tokenLists
    rw [List.cons_append, runs_drop (by rw [first]; rfl)]

theorem tokenLists_separated (white : isWhiteSpace c = true) (left right : List Char) :
    tokenLists (left ++ c :: right) = tokenLists left ++ tokenLists right := by
  unfold tokenLists
  rw [runs_separated (by rw [white]; rfl), List.map_append, List.filter_append]

theorem tokenLists_blank (nonempty : blank ≠ []) (white : ∀ c ∈ blank, isWhiteSpace c = true) (left right : List Char) :
    tokenLists (left ++ blank ++ right) = tokenLists left ++ tokenLists right := by
  cases blank with
  | nil => exact absurd rfl nonempty
  | cons c blank =>
    obtain ⟨first, later⟩ := List.forall_mem_cons.mp white
    rw [List.append_assoc, List.cons_append, tokenLists_separated first, tokenLists_leading later]

theorem tokenLists_token (token : IsToken word) : tokenLists word = [word] := by
  have kept : ∀ c ∈ word, (!isWhiteSpace c) = true := by
    intro c inside
    rw [token.unbroken c inside]
    rfl
  unfold tokenLists
  rw [runs_last token.nonempty kept]
  simp [trimTo_self token.starts token.ends, token.nonempty]

theorem tokenLists_intercalate (shape : ∀ token ∈ words, IsToken token) :
    tokenLists ([' '].intercalate words) = words := by
  induction words with
  | nil => rfl
  | cons token words step =>
    obtain ⟨first, later⟩ := List.forall_mem_cons.mp shape
    cases words with
    | nil => rw [List.intercalate_singleton, tokenLists_token first]
    | cons next words =>
      rw [List.intercalate_cons_cons, List.append_assoc, List.singleton_append,
        tokenLists_separated (by decide), tokenLists_token first, step later]
      rfl

theorem tokenLists_map {change : Char → Char} (white : ∀ c, isWhiteSpace (change c) = isWhiteSpace c)
    (alphanumeric : ∀ c, isAlphanumeric (change c) = isAlphanumeric c) (text : List Char) :
    tokenLists (text.map change) = (tokenLists text).map (List.map change) := by
  have same : ∀ c, (!isWhiteSpace (change c)) = !isWhiteSpace c := fun c => congrArg _ (white c)
  have words := ((runs_splits (fun c => !isWhiteSpace c) text).map same).runs_eq
  have trimmed : trimTo isAlphanumeric ∘ List.map change = List.map change ∘ trimTo isAlphanumeric := by
    funext word
    exact ((trimTo_trims isAlphanumeric word).map alphanumeric).trimTo_eq
  have nonempty : (fun word => !word.isEmpty) ∘ List.map change = fun word => !word.isEmpty := by
    funext word
    simp
  unfold tokenLists
  rw [words, List.map_map, trimmed, ← List.map_map, List.filter_map, nonempty]

theorem tokens_exact :
    (∀ sentence : String, Tokenizes sentence.toList ((tokens sentence).map String.toList) ∧
      tokens (" ".intercalate (tokens sentence)) = tokens sentence) ∧
    ∀ a blank b : String, blank ≠ "" → (∀ c ∈ blank.toList, isWhiteSpace c = true) →
      tokens (a ++ blank ++ b) = tokens a ++ tokens b := by
  refine ⟨?_, ?_⟩
  · intro sentence
    have tokenizes := tokenizes_iff.mpr (toList_tokens sentence).symm
    refine ⟨tokenizes, map_toList_injective ?_⟩
    rw [toList_tokens, String.toList_intercalate]
    exact tokenLists_intercalate tokenizes.shape
  · intro a blank b nonempty white
    apply map_toList_injective
    rw [toList_tokens, String.toList_append, String.toList_append, List.map_append, toList_tokens, toList_tokens]
    exact tokenLists_blank (mt String.toList_eq_nil_iff.mp nonempty) white _ _

-- What stands alone between the words is no token, the apostrophe in a word stays, and the tab and the space
-- together separate no less than one of them.
theorem onun_tokens :
    "\t " ≠ "" ∧ (∀ c ∈ "\t ".toList, isWhiteSpace c = true) ∧
      tokens ("\"Bu\" --" ++ "\t " ++ "(O'nun!)") = tokens "\"Bu\" --" ++ tokens "(O'nun!)" ∧
      tokens "\"Bu\" --" ++ tokens "(O'nun!)" = ["Bu", "O'nun"] := by
  have nonempty : "\t " ≠ "" := by decide
  have white : ∀ c ∈ "\t ".toList, isWhiteSpace c = true := List.all_eq_true.mp (by decide)
  exact ⟨nonempty, white, tokens_exact.2 "\"Bu\" --" "\t " "(O'nun!)" nonempty white, by decide +kernel⟩

end Concord.Text
