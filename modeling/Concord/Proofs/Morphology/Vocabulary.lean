import Concord.Proofs.Morphology.Stemming

namespace Concord

namespace Lexicon

def Within (smaller larger : Lexicon) : Prop :=
  ∀ word, smaller.contains word = true → larger.contains word = true

variable {smaller larger : Lexicon} {word other : String}

theorem Within.unknown (within : smaller.Within larger) (unknown : larger.contains word = false) :
    smaller.contains word = false := by
  cases known : smaller.contains word with
  | false => rfl
  | true =>
    rw [within word known] at unknown
    cases unknown

theorem Within.uncorrected (within : smaller.Within larger) (uncorrected : larger.correct? word = none) :
    smaller.correct? word = none := by
  rw [correct?_eq_none] at uncorrected ⊢
  rcases uncorrected with empty | missing
  · exact .inl empty
  · refine .inr ?_
    intro other candidate
    exact missing other ⟨candidate.edited, candidate.differs, within other candidate.known⟩

theorem within_of_words (same : smaller.words = larger.words) : smaller.Within larger := by
  intro word known
  unfold contains at known ⊢
  rwa [← same]

theorem contains_ofWords {words : List String} : (ofWords words).contains word = true ↔ word ∈ words := by
  simp [contains, ofWords]

theorem words_countCorpus (lexicon : Lexicon) (corpus : String) : (lexicon.countCorpus corpus).words = lexicon.words := by
  have counted (words : List String) : (words.foldl count lexicon).words = lexicon.words := by
    induction words generalizing lexicon with
    | nil => rfl
    | cons word rest step => exact step (lexicon.count word)
  exact counted _

end Lexicon

namespace Stemmer

-- The stemmers take the same suffixes off a token and are left with the same word. If their stems differ,
-- each of them is the correction that its lexicon has for that word.
structure Agrees (first second : Stemmer) (token base : String) (taken : List Suffix) : Prop where
  firstWay : first.Explains token (first.stem token) base taken
  secondWay : second.Explains token (second.stem token) base taken
  categories : (first.stem token).categories = (second.stem token).categories
  text : (first.stem token).text = (second.stem token).text ∨
    first.lexicon.correct? base = some (first.stem token).text ∧
      second.lexicon.correct? base = some (second.stem token).text

variable {smaller larger first second : Stemmer} {token base text other : String} {suffix : Suffix}

theorem Ends.begins (ends : larger.Ends token text) (smaller : Stemmer) :
    ∃ base taken more, larger.Explains token ⟨text, []⟩ (Suffix.around base more) taken ∧
      smaller.Explains token (smaller.stem token) base (taken ++ more) := by
  obtain ⟨base, more, explains⟩ := smaller.stem_explained token
  refine ⟨base, [], more, ?_, explains⟩
  rw [← explains.whole]
  exact .done ends

theorem stem_begins (within : smaller.lexicon.Within larger.lexicon) (same : smaller.suffixes = larger.suffixes)
    (token : String) :
    ∃ base taken more, larger.Explains token (larger.stem token) (Suffix.around base more) taken ∧
      smaller.Explains token (smaller.stem token) base (taken ++ more) := by
  fun_induction larger.stem token with
  | case1 token known => exact Ends.begins (.known known) smaller
  | case2 token unknown corrected found => exact Ends.begins (.corrected (by simpa using unknown) found) smaller
  | case3 token unknown uncorrected suffix rest stripped inner step =>
    obtain ⟨base, taken, more, far, near⟩ := step
    have unknown : larger.lexicon.contains token = false := by simpa using unknown
    have unknown' := within.unknown unknown
    have uncorrected' := within.uncorrected uncorrected
    have stripped' : smaller.suffixes.strip? token = some (suffix, rest) := by rw [same, stripped]
    have cuts := Cuts.of_strip unknown uncorrected stripped
    have cuts' := Cuts.of_strip unknown' uncorrected' stripped'
    rw [stem_strip unknown' uncorrected' stripped']
    obtain ⟨_, nonempty, whole⟩ := SuffixTable.strip?_parts stripped
    subst whole
    exact ⟨base, suffix :: taken, more, far.strip cuts nonempty, near.strip cuts' nonempty⟩
  | case4 token unknown uncorrected unstripped =>
    exact Ends.begins (.bare (by simpa using unknown) uncorrected (SuffixTable.strip?_eq_none.mp unstripped)) smaller

theorem stem_categories_prefix (smaller larger : Stemmer) (within : smaller.lexicon.Within larger.lexicon)
    (same : smaller.suffixes = larger.suffixes) (token : String) :
    (larger.stem token).categories <+: (smaller.stem token).categories := by
  obtain ⟨base, taken, more, far, near⟩ := stem_begins within same token
  rw [far.categories, near.categories, List.map_append]
  exact List.prefix_append _ _

theorem Cuts.not_ends (within : smaller.lexicon.Within larger.lexicon) (same : smaller.suffixes = larger.suffixes)
    (cuts : larger.Cuts token suffix) : ¬ smaller.Ends token text := by
  intro ends
  cases ends with
  | known known =>
    rw [within.unknown cuts.unknown] at known
    cases known
  | corrected _ found =>
    rw [within.uncorrected cuts.uncorrected] at found
    cases found
  | bare _ _ unfit => exact unfit suffix (same ▸ cuts.listed) cuts.fits

theorem Ends.agree (here : first.Ends base text) (words : first.lexicon.words = second.lexicon.words)
    (there : second.Ends base other) :
    text = other ∨ first.lexicon.correct? base = some text ∧ second.lexicon.correct? base = some other := by
  have within := Lexicon.within_of_words words
  have back := Lexicon.within_of_words words.symm
  cases here with
  | known known =>
    cases there with
    | known => exact .inl rfl
    | corrected unknown => rw [within _ known] at unknown; cases unknown
    | bare unknown => rw [within _ known] at unknown; cases unknown
  | corrected unknown found =>
    cases there with
    | known known => rw [back _ known] at unknown; cases unknown
    | corrected _ found' => exact .inr ⟨found, found'⟩
    | bare _ uncorrected => rw [within.uncorrected uncorrected] at found; cases found
  | bare unknown uncorrected =>
    cases there with
    | known known => rw [back _ known] at unknown; cases unknown
    | corrected _ found => rw [back.uncorrected uncorrected] at found; cases found
    | bare => exact .inl rfl

theorem agrees (first second : Stemmer) (words : first.lexicon.words = second.lexicon.words)
    (same : first.suffixes = second.suffixes) (token : String) :
    ∃ base taken, first.Agrees second token base taken := by
  obtain ⟨base, taken, more, far, near⟩ := stem_begins (Lexicon.within_of_words words) same token
  cases more with
  | cons suffix inner =>
    have cuts := near.cuts taken suffix inner rfl
    exact absurd far.ends (cuts.not_ends (Lexicon.within_of_words words.symm) same.symm)
  | nil =>
    rw [List.append_nil] at near
    exact ⟨base, taken, near, far, near.categories.trans far.categories.symm, near.ends.agree words far.ends⟩

theorem larger_strips_less (suffixes : SuffixTable) (token : String) :
    (∀ smaller larger : Lexicon, smaller.Within larger →
      (stem ⟨larger, suffixes⟩ token).categories <+: (stem ⟨smaller, suffixes⟩ token).categories) ∧
    (∀ lexicon recounted : Lexicon, lexicon.words = recounted.words →
      ∃ base taken, Agrees ⟨lexicon, suffixes⟩ ⟨recounted, suffixes⟩ token base taken) ∧
    ∀ (lexicon : Lexicon) (corpus : String), ∃ base taken,
      Agrees ⟨lexicon, suffixes⟩ ⟨lexicon.countCorpus corpus, suffixes⟩ token base taken := by
  refine ⟨?_, ?_, ?_⟩
  · intro smaller larger within
    exact stem_categories_prefix ⟨smaller, suffixes⟩ ⟨larger, suffixes⟩ within rfl token
  · intro lexicon recounted words
    exact agrees ⟨lexicon, suffixes⟩ ⟨recounted, suffixes⟩ words rfl token
  · intro lexicon corpus
    exact agrees ⟨lexicon, suffixes⟩ ⟨_, suffixes⟩ (lexicon.words_countCorpus corpus).symm rfl token

-- The smaller lexicon takes a suffix off a word that the larger one knows. A corpus may change the correction
-- of another word, but nothing is taken off it either way.
theorem edi_strips_less :
    (Lexicon.ofWords ["e"]).Within (.ofWords ["e", "edi"]) ∧
      stem ⟨.ofWords ["e"], .ofSuffixes [⟨"di", by decide, "Past"⟩]⟩ "edi" = ⟨"e", ["Past"]⟩ ∧
      (stem ⟨.ofWords ["e", "edi"], .ofSuffixes [⟨"di", by decide, "Past"⟩]⟩ "edi").categories <+:
        (stem ⟨.ofWords ["e"], .ofSuffixes [⟨"di", by decide, "Past"⟩]⟩ "edi").categories ∧
    (Lexicon.ofWords ["o", "bu"]).words = ((Lexicon.ofWords ["o", "bu"]).countCorpus "o, bu o").words ∧
      ∃ base taken, Agrees ⟨.ofWords ["o", "bu"], .ofSuffixes []⟩
        ⟨(Lexicon.ofWords ["o", "bu"]).countCorpus "o, bu o", .ofSuffixes []⟩ "bo" base taken := by
  have within : (Lexicon.ofWords ["e"]).Within (.ofWords ["e", "edi"]) := by
    intro word
    rw [Lexicon.contains_ofWords, Lexicon.contains_ofWords]
    intro member
    simp [List.mem_singleton.mp member]
  have words := (Lexicon.ofWords ["o", "bu"]).words_countCorpus "o, bu o"
  refine ⟨within, by decide +kernel, ?_, words.symm, ?_⟩
  · exact (larger_strips_less (.ofSuffixes [⟨"di", by decide, "Past"⟩]) "edi").1 _ _ within
  · exact (larger_strips_less (.ofSuffixes []) "bo").2.1 _ _ words.symm

end Stemmer
end Concord
