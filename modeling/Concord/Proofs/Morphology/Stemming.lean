import Concord.Morphology.Stemmer
import Concord.Proofs.Morphology.Correction
import Concord.Proofs.Morphology.Suffixes

namespace Concord

-- A base with suffixes put behind it. The first one of the list is the outermost and comes last.
def Suffix.around (base : String) : List Suffix → String
  | [] => base
  | suffix :: inner => around base inner ++ suffix.text

namespace Stemmer

-- Why a suffix is taken off what is left of a token. The place of the cut is counted in bytes and is
-- the place of a character.
structure Cuts (stemmer : Stemmer) (left : String) (suffix : Suffix) : Prop where
  unknown : stemmer.lexicon.contains left = false
  uncorrected : stemmer.lexicon.correct? left = none
  listed : suffix ∈ stemmer.suffixes.suffixes
  matched : stemmer.suffixes.longestMatch? left = some suffix
  longest : ∀ other ∈ stemmer.suffixes.suffixes, other.Fits left → other.length ≤ suffix.length
  boundary : String.Pos.Raw.IsValid left ⟨left.utf8ByteSize - suffix.text.utf8ByteSize⟩

inductive Ends (stemmer : Stemmer) : String → String → Prop where
  | known {base : String} (known : stemmer.lexicon.contains base = true) : Ends stemmer base base
  | corrected {base word : String} (unknown : stemmer.lexicon.contains base = false)
      (found : stemmer.lexicon.correct? base = some word) : Ends stemmer base word
  | bare {base : String} (unknown : stemmer.lexicon.contains base = false)
      (uncorrected : stemmer.lexicon.correct? base = none)
      (unfit : ∀ suffix ∈ stemmer.suffixes.suffixes, ¬ suffix.Fits base) : Ends stemmer base base

structure Explains (stemmer : Stemmer) (token : String) (stem : Stem) (base : String)
    (taken : List Suffix) : Prop where
  whole : token = Suffix.around base taken
  categories : stem.categories = taken.map Suffix.category
  nonempty : token ≠ "" → base ≠ ""
  cuts : ∀ outer suffix inner, taken = outer ++ suffix :: inner →
    stemmer.Cuts (Suffix.around base (suffix :: inner)) suffix
  ends : stemmer.Ends base stem.text

variable {stemmer : Stemmer} {token rest base text : String} {suffix : Suffix} {taken : List Suffix} {stem : Stem}

theorem Cuts.of_strip (unknown : stemmer.lexicon.contains token = false)
    (uncorrected : stemmer.lexicon.correct? token = none)
    (stripped : stemmer.suffixes.strip? token = some (suffix, rest)) : stemmer.Cuts token suffix := by
  obtain ⟨listed, _, whole⟩ := SuffixTable.strip?_parts stripped
  refine ⟨unknown, uncorrected, listed, SuffixTable.longestMatch?_eq_some.mpr ⟨rest, stripped⟩,
    SuffixTable.strip?_longest stripped, ?_⟩
  rw [← whole, String.utf8ByteSize_append, Nat.add_sub_cancel]
  exact String.Pos.Raw.isValid_iff_exists_append.mpr ⟨rest, suffix.text, rfl, rfl⟩

theorem Cuts.fits (cuts : stemmer.Cuts token suffix) : suffix.Fits token := by
  obtain ⟨rest, stripped⟩ := SuffixTable.longestMatch?_eq_some.mp cuts.matched
  exact SuffixTable.strip?_fits stripped

theorem Explains.done (ends : stemmer.Ends token text) : stemmer.Explains token ⟨text, []⟩ token [] where
  whole := rfl
  categories := rfl
  nonempty := id
  cuts := by simp
  ends := ends

theorem Explains.strip (cuts : stemmer.Cuts (rest ++ suffix.text) suffix) (nonempty : rest ≠ "")
    (inner : stemmer.Explains rest stem base taken) :
    stemmer.Explains (rest ++ suffix.text) ⟨stem.text, suffix.category :: stem.categories⟩ base
      (suffix :: taken) where
  whole := by rw [inner.whole]; rfl
  categories := by rw [inner.categories]; rfl
  nonempty _ := inner.nonempty nonempty
  cuts := by
    intro outer other behind order
    cases outer with
    | nil =>
      cases order
      change stemmer.Cuts (Suffix.around base taken ++ suffix.text) suffix
      rwa [← inner.whole]
    | cons first outer =>
      cases order
      exact inner.cuts outer other behind rfl
  ends := inner.ends

theorem stem_explained (stemmer : Stemmer) (token : String) :
    ∃ base taken, stemmer.Explains token (stemmer.stem token) base taken := by
  fun_induction stemmer.stem token with
  | case1 token known => exact ⟨token, [], .done (.known known)⟩
  | case2 token unknown corrected found =>
    exact ⟨token, [], .done (.corrected (by simpa using unknown) found)⟩
  | case3 token unknown uncorrected suffix rest stripped inner step =>
    obtain ⟨base, taken, explains⟩ := step
    obtain ⟨_, nonempty, whole⟩ := SuffixTable.strip?_parts stripped
    have cuts := Cuts.of_strip (by simpa using unknown) uncorrected stripped
    subst whole
    exact ⟨base, suffix :: taken, explains.strip cuts nonempty⟩
  | case4 token unknown uncorrected unstripped =>
    exact ⟨token, [], .done (.bare (by simpa using unknown) uncorrected (SuffixTable.strip?_eq_none.mp unstripped))⟩

theorem stem_known (known : stemmer.lexicon.contains token = true) : stemmer.stem token = ⟨token, []⟩ := by
  rw [Stemmer.stem, if_pos known]

theorem stem_corrected (unknown : stemmer.lexicon.contains token = false)
    (found : stemmer.lexicon.correct? token = some text) : stemmer.stem token = ⟨text, []⟩ := by
  rw [Stemmer.stem]
  simp only [unknown, found, Bool.false_eq_true, if_false]

theorem stem_strip (unknown : stemmer.lexicon.contains token = false)
    (uncorrected : stemmer.lexicon.correct? token = none)
    (stripped : stemmer.suffixes.strip? token = some (suffix, rest)) :
    stemmer.stem token = ⟨(stemmer.stem rest).text, suffix.category :: (stemmer.stem rest).categories⟩ := by
  rw [Stemmer.stem]
  simp only [unknown, uncorrected, Bool.false_eq_true, if_false]
  split
  · next again =>
    rw [stripped] at again
    cases again
    rfl
  · next unstripped =>
    rw [stripped] at unstripped
    cases unstripped

theorem stem_bare (unknown : stemmer.lexicon.contains token = false)
    (uncorrected : stemmer.lexicon.correct? token = none)
    (unfit : ∀ suffix ∈ stemmer.suffixes.suffixes, ¬ suffix.Fits token) : stemmer.stem token = ⟨token, []⟩ := by
  have unstripped := SuffixTable.strip?_eq_none.mpr unfit
  rw [Stemmer.stem]
  simp only [unknown, uncorrected, Bool.false_eq_true, if_false]
  split
  · next stripped =>
    rw [unstripped] at stripped
    cases stripped
  · rfl

theorem Ends.settled (ends : stemmer.Ends base text) :
    stemmer.lexicon.contains text = true ∨
      stemmer.lexicon.correct? text = none ∧ ∀ suffix ∈ stemmer.suffixes.suffixes, ¬ suffix.Fits text := by
  cases ends with
  | known known => exact .inl known
  | corrected _ found => exact .inl (Lexicon.correct?_known found)
  | bare _ uncorrected unfit => exact .inr ⟨uncorrected, unfit⟩

theorem Ends.stem_eq (ends : stemmer.Ends base text) : stemmer.stem text = ⟨text, []⟩ := by
  cases ends with
  | known known => exact stem_known known
  | corrected _ found => exact stem_known (Lexicon.correct?_known found)
  | bare unknown uncorrected unfit => exact stem_bare unknown uncorrected unfit

theorem stem_exact (stemmer : Stemmer) (token : String) :
    (∃ base taken, stemmer.Explains token (stemmer.stem token) base taken) ∧
    (stemmer.lexicon.contains (stemmer.stem token).text = true ∨
      stemmer.lexicon.correct? (stemmer.stem token).text = none ∧
        ∀ suffix ∈ stemmer.suffixes.suffixes, ¬ suffix.Fits (stemmer.stem token).text) ∧
    stemmer.stem (stemmer.stem token).text = ⟨(stemmer.stem token).text, []⟩ := by
  obtain ⟨base, taken, explains⟩ := stemmer.stem_explained token
  exact ⟨⟨base, taken, explains⟩, explains.ends.settled, explains.ends.stem_eq⟩

end Stemmer
end Concord
