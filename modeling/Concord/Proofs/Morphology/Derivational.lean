import Concord.Proofs.Morphology.Stemming
import Concord.Proofs.Morphology.SuffixTable

namespace Concord

namespace Suffix

variable {suffix : Suffix} {suffixes : List Suffix}

theorem place_front (short : ∀ other ∈ suffixes, other.length ≤ suffix.length) :
    place suffix suffixes = suffix :: suffixes := by
  cases suffixes with
  | nil => rfl
  | cons head rest => exact if_pos (short head List.mem_cons_self)

theorem filter_place (keep : Suffix → Bool) (ordered : Descending suffixes) :
    (place suffix suffixes).filter keep =
      if keep suffix then place suffix (suffixes.filter keep) else suffixes.filter keep := by
  induction suffixes with
  | nil => simp [place, List.filter_cons]
  | cons head rest step =>
    obtain ⟨behind, later⟩ := List.pairwise_cons.mp ordered
    by_cases short : head.length ≤ suffix.length
    · have shorter : ∀ other ∈ (head :: rest).filter keep, other.length ≤ suffix.length := by
        intro other member
        rcases List.mem_cons.mp (List.mem_of_mem_filter member) with rfl | after
        · exact short
        · exact Nat.le_trans (behind other after) short
      rw [place_front shorter, place, if_pos short, List.filter_cons]
    · rw [place, if_neg short, List.filter_cons, List.filter_cons, step later]
      by_cases kept : keep head = true
      · simp only [kept, if_true, place, if_neg short]
        split <;> rfl
      · simp only [kept, Bool.false_eq_true, if_false]

theorem filter_sorted (keep : Suffix → Bool) (suffixes : List Suffix) :
    (sorted suffixes).filter keep = sorted (suffixes.filter keep) := by
  induction suffixes with
  | nil => rfl
  | cons head rest step =>
    change (place head (sorted rest)).filter keep = _
    rw [filter_place keep (sorted_descending rest), step, List.filter_cons]
    split <;> rfl

end Suffix

namespace SuffixTable

def keeping (keep : String → Bool) (table : SuffixTable) : SuffixTable :=
  ⟨table.suffixes.filter fun suffix => keep suffix.category, table.descending.filter _⟩

def read? (text : String) : Option (Dictionary (List String)) :=
  (Json.read? text).bind (Json.dictionaryOf? (Json.listOf? Json.text?))

def declared (categories : Dictionary (List String)) : List (String × String) :=
  categories.entries.flatMap fun (category, suffixes) => suffixes.map fun suffix => (suffix, category)

variable {table : SuffixTable} {keep : String → Bool} {entries : List (String × String)}
  {categories : Dictionary (List String)} {text token rest : String} {suffix : Suffix}

theorem filter_declared (keep : String → Bool) (entries : List (String × List String)) :
    ((entries.filter fun (category, _) => keep category).flatMap fun (category, suffixes) =>
      suffixes.map fun suffix => (suffix, category)) =
    (entries.flatMap fun (category, suffixes) => suffixes.map fun suffix => (suffix, category)).filter
      fun entry => keep entry.2 := by
  induction entries with
  | nil => rfl
  | cons entry rest step =>
    rw [List.flatMap_cons, List.filter_append, ← step, List.filter_map]
    cases kept : keep entry.1 <;> simp [Function.comp_def, kept]

theorem ofText_eq (found : read? text = some categories) (useDerivational : Bool) :
    ofText text useDerivational =
      ofEntries ((declared categories).filter fun entry => useDerivational || entry.2 ≠ derivational) := by
  unfold read? at found
  unfold ofText
  rw [found]
  exact congrArg ofEntries (filter_declared (fun category => useDerivational || category ≠ derivational) _)

theorem ofText_malformed (missing : read? text = none) (useDerivational : Bool) :
    ofText text useDerivational = .error .malformed := by
  unfold read? at missing
  unfold ofText
  rw [missing]

theorem ofSuffixes_keeping (keep : String → Bool) (suffixes : List Suffix) :
    ofSuffixes (suffixes.filter fun suffix => keep suffix.category) = (ofSuffixes suffixes).keeping keep := by
  simp only [ofSuffixes, keeping, Suffix.filter_sorted]

theorem ofEntries_keeping (keep : String → Bool) (made : ofEntries entries = .ok table) :
    ofEntries (entries.filter fun entry => keep entry.2) = .ok (table.keeping keep) := by
  obtain ⟨suffixes, read, rfl⟩ := ofEntries_eq_ok.mp made
  refine ofEntries_eq_ok.mpr ⟨_, mapM_filter read ?_, ofSuffixes_keeping keep suffixes⟩
  intro declared suffix made
  rw [show suffix.category = declared.2 from congrArg Prod.snd (Suffix.ofEntry_eq_ok made)]

theorem strip?_keeping (stripped : table.strip? token = some (suffix, rest)) (kept : keep suffix.category = true) :
    (table.keeping keep).strip? token = some (suffix, rest) := by
  obtain ⟨passed, found, behind, order, here, unfit⟩ := List.findSome?_eq_some_iff.mp stripped
  obtain ⟨left, taken, same⟩ := Option.map_eq_some_iff.mp here
  cases same
  refine List.findSome?_eq_some_iff.mpr
    ⟨passed.filter fun other => keep other.category, suffix, behind.filter fun other => keep other.category, ?_, here, ?_⟩
  · simp [keeping, order, kept]
  · intro other member
    exact unfit other (List.mem_of_mem_filter member)

theorem strip?_keeping_none (unstripped : table.strip? token = none) : (table.keeping keep).strip? token = none := by
  rw [strip?_eq_none] at unstripped ⊢
  intro suffix listed
  exact unstripped suffix (List.mem_of_mem_filter listed)

end SuffixTable

namespace Stemmer

variable {keep : String → Bool}

def keeping (keep : String → Bool) (stemmer : Stemmer) : Stemmer :=
  { stemmer with suffixes := stemmer.suffixes.keeping keep }

-- As long as only suffixes that are kept come off, there is nothing that the others could change.
theorem stem_keeping (stemmer : Stemmer) (token : String)
    (kept : ∀ category ∈ (stemmer.stem token).categories, keep category = true) :
    (stemmer.keeping keep).stem token = stemmer.stem token := by
  fun_induction stemmer.stem token with
  | case1 token known => exact stem_known known
  | case2 token unknown corrected found => exact stem_corrected (Bool.eq_false_iff.mpr unknown) found
  | case3 token unknown uncorrected suffix rest stripped inner step =>
    obtain ⟨here, later⟩ := List.forall_mem_cons.mp kept
    have unknown : (stemmer.keeping keep).lexicon.contains token = false := Bool.eq_false_iff.mpr unknown
    rw [stem_strip unknown uncorrected (SuffixTable.strip?_keeping stripped here), step later]
  | case4 token unknown uncorrected unstripped =>
    have unknown : (stemmer.keeping keep).lexicon.contains token = false := Bool.eq_false_iff.mpr unknown
    exact stem_bare unknown uncorrected (SuffixTable.strip?_eq_none.mp (SuffixTable.strip?_keeping_none unstripped))

end Stemmer

namespace SuffixTable

theorem without_derivational (text : String) :
    (∀ full, ofText text true = .ok full →
      ∃ plain, ofText text false = .ok plain ∧
        plain.suffixes = full.suffixes.filter (fun suffix => suffix.category ≠ derivational) ∧
        ∀ (lexicon : Lexicon) (token : String),
          derivational ∉ (Stemmer.stem ⟨lexicon, full⟩ token).categories →
            Stemmer.stem ⟨lexicon, plain⟩ token = Stemmer.stem ⟨lexicon, full⟩ token) ∧
    (∀ categories, read? text = some categories →
      ofText text true = ofEntries (declared categories) ∧
      ofText text false = ofEntries ((declared categories).filter fun entry => entry.2 ≠ derivational) ∧
      ∀ error, ofText text false = .error error →
        ∃ entry ∈ declared categories, entry.2 ≠ derivational ∧ Suffix.Dashes entry.1 ∧
          error = .emptySuffix entry.2) ∧
    (read? text = none → ∀ useDerivational, ofText text useDerivational = .error .malformed) := by
  refine ⟨?_, ?_, ofText_malformed⟩
  · intro full made
    refine ⟨full.keeping (· ≠ derivational), ?_, rfl, ?_⟩
    · cases found : read? text with
      | none =>
        rw [ofText_malformed found] at made
        cases made
      | some categories =>
        rw [ofText_eq found] at made ⊢
        simpa using ofEntries_keeping (· ≠ derivational) made
    · intro lexicon token missing
      exact Stemmer.stem_keeping ⟨lexicon, full⟩ token
        fun category member => decide_eq_true fun same => missing (same ▸ member)
  · intro categories found
    refine ⟨?_, ?_, ?_⟩
    · simpa using ofText_eq found true
    · simpa using ofText_eq found false
    · intro error failed
      rw [ofText_eq found, ofEntries_eq_error] at failed
      obtain ⟨before, text, category, after, order, -, dashes, rfl⟩ := failed
      have member : (text, category) ∈ (declared categories).filter fun entry => false || entry.2 ≠ derivational := by
        rw [order]
        simp
      obtain ⟨listed, other⟩ := List.mem_filter.mp member
      exact ⟨(text, category), listed, by simpa using other, dashes, rfl⟩

-- A longer suffix that is derivational, and two suffixes that are nothing, one of them derivational.
def lengthsText : String := "\x7b\"Derivational\":[\"-lik\"],\"Past\":[\"-di\"]\x7d"

def dashesText : String := "\x7b\"Derivational\":[\"-\"],\"Past\":[\"-di\",\"--\"]\x7d"

theorem edi_switched :
    (∃ full plain, ofText lengthsText true = .ok full ∧ ofText lengthsText false = .ok plain ∧
      full.suffixes.map Suffix.entry = [("lik", "Derivational"), ("di", "Past")] ∧
      plain.suffixes = full.suffixes.filter (fun suffix => suffix.category ≠ derivational) ∧
      derivational ∉ (Stemmer.stem ⟨.ofWords ["e"], full⟩ "edi").categories ∧
      Stemmer.stem ⟨.ofWords ["e"], plain⟩ "edi" = Stemmer.stem ⟨.ofWords ["e"], full⟩ "edi") ∧
    (∃ categories, read? dashesText = some categories ∧ ofText dashesText false = .error (.emptySuffix "Past") ∧
      ∃ entry ∈ declared categories, entry.2 ≠ derivational ∧ Suffix.Dashes entry.1 ∧
        SuffixError.emptySuffix "Past" = .emptySuffix entry.2) ∧
    read? "[]" = none ∧ ofText "[]" false = .error .malformed := by
  refine ⟨?_, ?_, ?_⟩
  · have order : (ofText lengthsText true).toOption.map (fun full => full.suffixes.map Suffix.entry) =
        some [("lik", "Derivational"), ("di", "Past")] := by
      decide +kernel
    have taken : (ofText lengthsText true).toOption.map (fun full =>
        (Stemmer.stem ⟨.ofWords ["e"], full⟩ "edi").categories) = some ["Past"] := by
      decide +kernel
    cases made : ofText lengthsText true with
    | error error =>
      rw [made] at order
      cases order
    | ok full =>
      rw [made] at order taken
      obtain ⟨plain, switched, kept, same⟩ := (without_derivational lengthsText).1 full made
      have missing : derivational ∉ (Stemmer.stem ⟨.ofWords ["e"], full⟩ "edi").categories := by
        rw [show (Stemmer.stem ⟨.ofWords ["e"], full⟩ "edi").categories = ["Past"] from
          Option.some.inj taken]
        decide
      exact ⟨full, plain, rfl, switched, Option.some.inj order, kept, missing, same _ _ missing⟩
  · have readable : (read? dashesText).isSome = true := by decide +kernel
    have failed : ofText dashesText false = .error (.emptySuffix "Past") := by
      have result : (ofText dashesText false).map (fun plain => plain.suffixes.map Suffix.entry) =
          .error (.emptySuffix "Past") := by
        decide +kernel
      cases made : ofText dashesText false with
      | error error =>
        rw [made] at result
        exact congrArg Except.error (Except.error.inj result)
      | ok plain =>
        rw [made] at result
        cases result
    obtain ⟨categories, found⟩ := Option.isSome_iff_exists.mp readable
    exact ⟨categories, found, failed, ((without_derivational dashesText).2.1 categories found).2.2 _ failed⟩
  · have missing : read? "[]" = none := by decide +kernel
    exact ⟨missing, (without_derivational "[]").2.2 missing false⟩

end SuffixTable
end Concord
