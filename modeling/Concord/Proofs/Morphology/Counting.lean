import Concord.Proofs.Morphology.Vocabulary
import Concord.Proofs.Text.Places

namespace Concord

theorem Text.countedWords_separated {c : Char} (separates : Unicode.isWordCharacter c = false) (a b : String) :
    countedWords (a.push c ++ b) = countedWords a ++ countedWords b := by
  unfold countedWords
  rw [String.toList_append, String.toList_push, List.append_assoc, List.singleton_append,
    runs_separated separates, List.map_append]

theorem Text.count_countedWords (word text : String) :
    ((countedWords text).count word : ℕ∞) = (places Unicode.isWordCharacter word.toList text.toList).encard := by
  have counted := List.count_map_of_injective (runs Unicode.isWordCharacter text.toList) String.ofList
    (fun _ _ => String.ofList_injective) word.toList
  rw [String.ofList_toList] at counted
  unfold countedWords
  rw [counted, count_runs]

namespace Lexicon

structure Alike (first second : Lexicon) : Prop where
  words : first.words = second.words
  frequency : ∀ word, first.frequency word = second.frequency word
  correct : ∀ word, first.correct? word = second.correct? word
  stem : ∀ suffixes token, Stemmer.stem ⟨first, suffixes⟩ token = Stemmer.stem ⟨second, suffixes⟩ token

variable {first second : Lexicon}

theorem frequency_count (lexicon : Lexicon) (word other : String) :
    (lexicon.count word).frequency other = lexicon.frequency other + if word = other then 1 else 0 := by
  unfold frequency count
  rw [Std.TreeMap.getD_alter]
  simp only [Std.compare_eq_iff_eq]
  split
  · next same =>
    rw [← same, Option.getD_some, Std.TreeMap.getD_eq_getD_getElem?]
  · rfl

theorem frequency_foldl_count (lexicon : Lexicon) (words : List String) (word : String) :
    (words.foldl count lexicon).frequency word = lexicon.frequency word + words.count word := by
  induction words generalizing lexicon with
  | nil => rfl
  | cons other rest step =>
    rw [List.foldl_cons, step, frequency_count, List.count_cons]
    simp only [beq_iff_eq]
    omega

theorem frequency_countCorpus (lexicon : Lexicon) (text word : String) :
    (lexicon.countCorpus text).frequency word = lexicon.frequency word + (Text.countedWords text).count word :=
  lexicon.frequency_foldl_count _ word

theorem correct?_congr (words : first.words = second.words)
    (frequency : ∀ word, first.frequency word = second.frequency word) (word : String) :
    first.correct? word = second.correct? word := by
  have same : first.preferred = second.preferred := by
    funext a b
    simp only [preferred, frequency]
  have found : first.corrections word = second.corrections word := by
    simp only [corrections, contains, words]
  unfold correct?
  rw [same, found]

end Lexicon

theorem Stemmer.stem_congr {first second : Stemmer} (suffixes : first.suffixes = second.suffixes)
    (words : first.lexicon.words = second.lexicon.words)
    (correct : ∀ word, first.lexicon.correct? word = second.lexicon.correct? word) (token : String) :
    first.stem token = second.stem token := by
  have unknown : ∀ word, first.lexicon.contains word = false → second.lexicon.contains word = false := by
    intro word outside
    rwa [Lexicon.contains, ← words]
  fun_induction first.stem token with
  | case1 token found =>
    rw [Lexicon.contains, words] at found
    exact (stem_known found).symm
  | case2 token outside corrected found =>
    exact (stem_corrected (unknown token (by simpa using outside)) ((correct token).symm.trans found)).symm
  | case3 token outside uncorrected suffix rest stripped inner step =>
    rw [suffixes] at stripped
    rw [stem_strip (unknown token (by simpa using outside)) ((correct token).symm.trans uncorrected) stripped, ← step]
  | case4 token outside uncorrected unstripped =>
    rw [suffixes] at unstripped
    exact (stem_bare (unknown token (by simpa using outside)) ((correct token).symm.trans uncorrected)
      (SuffixTable.strip?_eq_none.mp unstripped)).symm

namespace Lexicon

theorem alike (words : first.words = second.words)
    (frequency : ∀ word, first.frequency word = second.frequency word) : Alike first second where
  words := words
  frequency := frequency
  correct := correct?_congr words frequency
  stem suffixes token := by
    have same : (Stemmer.mk first suffixes).suffixes = (Stemmer.mk second suffixes).suffixes := rfl
    exact Stemmer.stem_congr same words (correct?_congr words frequency) token

theorem counting_exact (lexicon : Lexicon) :
    (∀ text : String, (lexicon.countCorpus text).words = lexicon.words ∧ ∀ word : String,
      ((lexicon.countCorpus text).frequency word : ℕ∞) =
        lexicon.frequency word + (Text.places Unicode.isWordCharacter word.toList text.toList).encard) ∧
    ∀ (a b : String) (c : Char), Unicode.isWordCharacter c = false →
      Alike (lexicon.countCorpus (a.push c ++ b)) ((lexicon.countCorpus a).countCorpus b) ∧
      Alike (lexicon.countCorpus (a.push c ++ b)) ((lexicon.countCorpus b).countCorpus a) ∧
      Alike ((lexicon.countCorpus a).countCorpus b) ((lexicon.countCorpus b).countCorpus a) := by
  refine ⟨?_, ?_⟩
  · intro text
    refine ⟨lexicon.words_countCorpus text, ?_⟩
    intro word
    rw [frequency_countCorpus, Nat.cast_add, Text.count_countedWords]
  · intro a b c separates
    refine ⟨?_, ?_, ?_⟩
    all_goals
      apply alike
      · simp only [words_countCorpus]
      · intro word
        simp only [frequency_countCorpus, Text.countedWords_separated separates, List.count_append]
        omega

-- The comma parts the two corpora and is no part of a word. Only together do they have "o" more often than
-- "bu", and then it is preferred in either order.
theorem obu_counted :
    Unicode.isWordCharacter ',' = false ∧
      Alike ((ofWords ["o", "bu"]).countCorpus ("o bu".push ',' ++ "o"))
        (((ofWords ["o", "bu"]).countCorpus "o bu").countCorpus "o") ∧
      Alike ((ofWords ["o", "bu"]).countCorpus ("o bu".push ',' ++ "o"))
        (((ofWords ["o", "bu"]).countCorpus "o").countCorpus "o bu") ∧
      Alike (((ofWords ["o", "bu"]).countCorpus "o bu").countCorpus "o")
        (((ofWords ["o", "bu"]).countCorpus "o").countCorpus "o bu") ∧
      (((ofWords ["o", "bu"]).countCorpus "o").countCorpus "o bu").correct? "bo" = some "o" := by
  have separates : Unicode.isWordCharacter ',' = false := by decide
  obtain ⟨joined, turned, swapped⟩ := (counting_exact (ofWords ["o", "bu"])).2 "o bu" "o" ',' separates
  exact ⟨separates, joined, turned, swapped, by decide +kernel⟩

end Lexicon
end Concord
