import Concord.Proofs.Except
import Concord.Proofs.Morphology.Suffixes

namespace Concord

namespace Suffix

def Dashes (text : String) : Prop := ∀ c ∈ text.toList, c = '-'

def entry (suffix : Suffix) : String × String := (suffix.text, suffix.category)

def cleaned (declared : String × String) : String × String := (undashed declared.1, declared.2)

variable {suffix other : Suffix} {token text category : String} {declared : String × String}

theorem undashed_eq_empty : undashed text = "" ↔ Dashes text := by
  unfold undashed Dashes
  rw [String.ofList_eq_empty_iff, List.filter_eq_nil_iff]
  simp

theorem ofEntry_eq_ok (made : ofEntry declared = .ok suffix) : suffix.entry = cleaned declared := by
  unfold ofEntry at made
  split at made
  · cases made
    rfl
  · cases made

theorem ofEntry_succeeds : (∃ suffix, ofEntry declared = .ok suffix) ↔ ¬ Dashes declared.1 := by
  rw [← undashed_eq_empty]
  unfold ofEntry
  split
  · next letters => simp [letters]
  · next none => simpa using none

theorem ofEntry_eq_error {error : SuffixError} :
    ofEntry declared = .error error ↔ Dashes declared.1 ∧ error = .emptySuffix declared.2 := by
  rw [← undashed_eq_empty]
  unfold ofEntry
  split
  · next letters => simp [letters]
  · next none =>
    rw [not_ne_iff.mp none]
    simp [eq_comm]

theorem place_perm (suffix : Suffix) (suffixes : List Suffix) :
    (place suffix suffixes).Perm (suffix :: suffixes) := by
  induction suffixes with
  | nil => exact .refl _
  | cons head rest step =>
    unfold place
    split
    · exact .refl _
    · exact (step.cons head).trans (.swap suffix head rest)

theorem sorted_perm (suffixes : List Suffix) : (sorted suffixes).Perm suffixes := by
  induction suffixes with
  | nil => exact .refl _
  | cons head rest step => exact (place_perm head (sorted rest)).trans (step.cons head)

-- A suffix passes only longer ones, so among those of its own length it stays the first.
theorem place_filter (suffix : Suffix) (suffixes : List Suffix) (length : Nat) :
    (place suffix suffixes).filter (fun other => other.length = length) =
      (suffix :: suffixes).filter fun other => other.length = length := by
  induction suffixes with
  | nil => rfl
  | cons head rest step =>
    unfold place
    split
    · rfl
    · next longer =>
      simp only [List.filter_cons, step, decide_eq_true_eq]
      by_cases here : suffix.length = length
      · have passed : head.length ≠ length := by omega
        simp [here, passed]
      · simp [here]

theorem sorted_filter (suffixes : List Suffix) (length : Nat) :
    (sorted suffixes).filter (fun other => other.length = length) =
      suffixes.filter fun other => other.length = length := by
  induction suffixes with
  | nil => rfl
  | cons head rest step =>
    change (place head (sorted rest)).filter _ = _
    rw [place_filter]
    simp only [List.filter_cons, step]

theorem Fits.ends (fits : suffix.Fits token) : suffix.text.toList <:+ token.toList := by
  obtain ⟨rest, _, whole⟩ := fits
  exact ends_iff.mpr ⟨rest, whole⟩

theorem fits_iff_bytes :
    suffix.Fits token ↔
      suffix.text.utf8ByteSize < token.utf8ByteSize ∧ suffix.text.toList <:+ token.toList := by
  unfold Fits
  rw [ends_iff]
  constructor
  · rintro ⟨rest, letters, rfl⟩
    have bytes := mt String.utf8ByteSize_eq_zero_iff.mp letters
    refine ⟨?_, rest, rfl⟩
    rw [String.utf8ByteSize_append]
    omega
  · rintro ⟨shorter, rest, rfl⟩
    refine ⟨rest, ?_, rfl⟩
    rintro rfl
    simp at shorter

-- Two suffixes of one token end alike, so the one with fewer letters has fewer bytes, too.
theorem Fits.shorter (here : suffix.Fits token) (there : other.Fits token)
    (short : other.text.length ≤ suffix.text.length) (differ : other.text ≠ suffix.text) :
    other.text.length < suffix.text.length ∧ other.text.utf8ByteSize < suffix.text.utf8ByteSize := by
  have inside : other.text.toList <:+ suffix.text.toList := by
    apply List.suffix_of_suffix_length_le there.ends here.ends
    simpa only [String.length_toList] using short
  obtain ⟨front, whole⟩ := ends_iff.mp inside
  have letters : front ≠ "" := by
    rintro rfl
    exact differ (by simpa using whole)
  have counted := mt String.length_eq_zero_iff.mp letters
  have bytes := mt String.utf8ByteSize_eq_zero_iff.mp letters
  rw [← whole, String.length_append, String.utf8ByteSize_append]
  omega

end Suffix

namespace SuffixTable

structure Lists (table : SuffixTable) (entries : List (String × String)) : Prop where
  perm : (table.suffixes.map Suffix.entry).Perm (entries.map Suffix.cleaned)
  descending : table.suffixes.Pairwise fun a b => b.text.length ≤ a.text.length
  stable : ∀ length, (table.suffixes.map Suffix.entry).filter (fun entry => entry.1.length = length) =
    (entries.map Suffix.cleaned).filter fun entry => entry.1.length = length

structure Picks (table : SuffixTable) (entries : List (String × String)) (token : String) (suffix : Suffix) :
    Prop where
  listed : suffix ∈ table.suffixes
  fits : suffix.Fits token
  longest : ∀ other ∈ table.suffixes, other.Fits token → other.text ≠ suffix.text →
    other.text.length < suffix.text.length ∧ other.text.utf8ByteSize < suffix.text.utf8ByteSize
  declared : ∃ before text after, entries = before ++ (text, suffix.category) :: after ∧
    Suffix.undashed text = suffix.text ∧ ∀ earlier ∈ before, Suffix.undashed earlier.1 ≠ suffix.text

variable {table : SuffixTable} {entries : List (String × String)} {token : String} {suffix : Suffix}

theorem ofEntries_eq_ok :
    ofEntries entries = .ok table ↔
      ∃ suffixes, entries.mapM Suffix.ofEntry = .ok suffixes ∧ ofSuffixes suffixes = table := by
  unfold ofEntries
  rw [bind_eq_ok]
  simp

theorem ofEntries_lists (made : ofEntries entries = .ok table) : table.Lists entries := by
  obtain ⟨suffixes, read, rfl⟩ := ofEntries_eq_ok.mp made
  have same : suffixes.map Suffix.entry = entries.map Suffix.cleaned :=
    mapM_views read fun _ _ => Suffix.ofEntry_eq_ok
  refine ⟨?_, Suffix.sorted_descending suffixes, ?_⟩
  · rw [← same]
    exact (Suffix.sorted_perm suffixes).map Suffix.entry
  · intro length
    rw [← same, List.filter_map, List.filter_map]
    exact congrArg (List.map Suffix.entry) (Suffix.sorted_filter suffixes length)

theorem ofEntries_eq_error {error : SuffixError} :
    ofEntries entries = .error error ↔
      ∃ before text category after, entries = before ++ (text, category) :: after ∧
        (∀ earlier ∈ before, ¬ Suffix.Dashes earlier.1) ∧ Suffix.Dashes text ∧
          error = .emptySuffix category := by
  unfold ofEntries
  rw [bind_eq_error, mapM_eq_error]
  simp only [Suffix.ofEntry_succeeds, Suffix.ofEntry_eq_error, pure_ok, reduceCtorEq, and_false, exists_false,
    or_false, Prod.exists]

theorem ofEntries_fails :
    (∃ error, ofEntries entries = .error error) ↔ ∃ declared ∈ entries, Suffix.Dashes declared.1 := by
  constructor
  · rintro ⟨error, failed⟩
    obtain ⟨before, text, category, after, rfl, -, dashes, -⟩ := ofEntries_eq_error.mp failed
    exact ⟨(text, category), by simp, dashes⟩
  · rintro ⟨declared, member, dashes⟩
    cases made : ofEntries entries with
    | error error => exact ⟨error, rfl⟩
    | ok table =>
      obtain ⟨suffixes, read, -⟩ := ofEntries_eq_ok.mp made
      have letters := mapM_succeeds.mp ⟨suffixes, read⟩ declared member
      exact absurd dashes (Suffix.ofEntry_succeeds.mp letters)

theorem longestMatch?_eq_find (table : SuffixTable) (token : String) :
    table.longestMatch? token = table.suffixes.find? fun suffix =>
      suffix.text.utf8ByteSize < token.utf8ByteSize ∧ suffix.text.toList.isSuffixOf token.toList := by
  unfold longestMatch? strip?
  induction table.suffixes with
  | nil => rfl
  | cons suffix rest step =>
    have guard : (suffix.text.utf8ByteSize < token.utf8ByteSize ∧
        suffix.text.toList.isSuffixOf token.toList = true) ↔ suffix.Fits token := by
      rw [Suffix.fits_iff_bytes, List.isSuffixOf_iff_suffix]
    rw [List.findSome?_cons, List.find?_cons, ← step]
    cases taken : suffix.strip? token with
    | none =>
      have unfit : ¬ suffix.Fits token := by simp [Suffix.fits_iff, taken]
      rw [decide_eq_false (mt guard.mp unfit)]
      rfl
    | some left =>
      rw [decide_eq_true (guard.mpr (Suffix.fits_iff.mpr ⟨left, taken⟩))]
      rfl

theorem longestMatch?_eq_none :
    table.longestMatch? token = none ↔ ∀ suffix ∈ table.suffixes, ¬ suffix.Fits token := by
  rw [longestMatch?, Option.map_eq_none_iff, strip?_eq_none]

-- The entries of one text all have its length, so the table has them in the order of their declaration.
theorem Lists.find? (lists : table.Lists entries) (text : String) :
    (table.suffixes.map Suffix.entry).find? (fun entry => entry.1 = text) =
      (entries.map Suffix.cleaned).find? fun entry => entry.1 = text := by
  have sameLength (items : List (String × String)) :
      (items.filter fun entry => entry.1.length = text.length).find? (fun entry => entry.1 = text) =
        items.find? fun entry => entry.1 = text := by
    rw [List.find?_filter]
    congr 1
    funext entry
    by_cases same : entry.1 = text <;> simp [same]
  rw [← sameLength, lists.stable, sameLength]

-- What stands before the longest match does not fit, so it has another text.
theorem longestMatch?_declared (lists : table.Lists entries)
    (matched : table.longestMatch? token = some suffix) :
    ∃ before text after, entries = before ++ (text, suffix.category) :: after ∧
      Suffix.undashed text = suffix.text ∧ ∀ earlier ∈ before, Suffix.undashed earlier.1 ≠ suffix.text := by
  obtain ⟨rest, stripped⟩ := longestMatch?_eq_some.mp matched
  obtain ⟨_, letters, whole⟩ := strip?_parts stripped
  obtain ⟨passed, behind, order, unfit, -⟩ := strip?_order stripped
  have first : (table.suffixes.map Suffix.entry).find? (fun entry => entry.1 = suffix.text) =
      some suffix.entry := by
    rw [List.find?_map, Option.map_eq_some_iff]
    refine ⟨suffix, ?_, rfl⟩
    rw [order, List.find?_append, List.find?_eq_none.mpr, Option.none_or, List.find?_cons_of_pos]
    · simp [Suffix.entry]
    · intro other before same
      have sameText : other.text = suffix.text := of_decide_eq_true same
      exact unfit other before ⟨rest, letters, sameText ▸ whole⟩
  rw [lists.find?, List.find?_map, Option.map_eq_some_iff] at first
  obtain ⟨⟨text, category⟩, found, same⟩ := first
  obtain ⟨-, before, after, order, others⟩ := List.find?_eq_some_iff_append.mp found
  obtain rfl : category = suffix.category := congrArg Prod.snd same
  refine ⟨before, text, after, order, congrArg Prod.fst same, ?_⟩
  intro earlier member same
  have missed := others earlier member
  simp [Suffix.cleaned, same] at missed

theorem longestMatch?_picks (lists : table.Lists entries) (matched : table.longestMatch? token = some suffix) :
    table.Picks entries token suffix := by
  obtain ⟨rest, stripped⟩ := longestMatch?_eq_some.mp matched
  have fits := strip?_fits stripped
  refine ⟨(strip?_parts stripped).1, fits, ?_, longestMatch?_declared lists matched⟩
  intro other member ends differ
  exact fits.shorter ends (strip?_longest stripped other member ends) differ

theorem table_exact (entries : List (String × String)) :
    ((∃ error, ofEntries entries = .error error) ↔ ∃ declared ∈ entries, Suffix.Dashes declared.1) ∧
    (∀ error, ofEntries entries = .error error →
      ∃ before text category after, entries = before ++ (text, category) :: after ∧
        (∀ earlier ∈ before, ¬ Suffix.Dashes earlier.1) ∧ Suffix.Dashes text ∧
          error = .emptySuffix category ∧
            error.message = "suffix table error: empty suffix in category " ++ category) ∧
    ∀ table, ofEntries entries = .ok table → table.Lists entries ∧ ∀ token,
      (table.longestMatch? token = table.suffixes.find? fun suffix =>
        suffix.text.utf8ByteSize < token.utf8ByteSize ∧ suffix.text.toList.isSuffixOf token.toList) ∧
      (table.longestMatch? token = none ↔ ∀ suffix ∈ table.suffixes, ¬ suffix.Fits token) ∧
      ∀ suffix, table.longestMatch? token = some suffix → table.Picks entries token suffix := by
  refine ⟨ofEntries_fails, ?_, ?_⟩
  · intro error failed
    obtain ⟨before, text, category, after, order, sound, dashes, rfl⟩ := ofEntries_eq_error.mp failed
    exact ⟨before, text, category, after, order, sound, dashes, rfl, rfl⟩
  · intro table made
    have lists := ofEntries_lists made
    refine ⟨lists, ?_⟩
    intro token
    exact ⟨table.longestMatch?_eq_find token, longestMatch?_eq_none, fun _ => longestMatch?_picks lists⟩

-- One suffix is declared twice, with its dashes in different places; the other list has two that are nothing
-- without dashes.
theorem evim_table :
    (∃ table, ofEntries [("-lar", "Plural"), ("-i-m", "1st"), ("im-", "Copula"), ("m", "Noun")] = .ok table ∧
      ∃ suffix, table.longestMatch? "evim" = some suffix ∧ suffix.entry = ("im", "1st") ∧
        table.Picks [("-lar", "Plural"), ("-i-m", "1st"), ("im-", "Copula"), ("m", "Noun")] "evim" suffix) ∧
    ofEntries [("-lar", "Plural"), ("--", "Past"), ("", "1st")] = .error (.emptySuffix "Past") ∧
      ∃ before text after, [("-lar", "Plural"), ("--", "Past"), ("", "1st")] = before ++ (text, "Past") :: after ∧
        (∀ earlier ∈ before, ¬ Suffix.Dashes earlier.1) ∧ Suffix.Dashes text := by
  have found : (ofEntries [("-lar", "Plural"), ("-i-m", "1st"), ("im-", "Copula"), ("m", "Noun")]).toOption.map
      (fun table => (table.longestMatch? "evim").map Suffix.entry) = some (some ("im", "1st")) := by
    decide +kernel
  have failed : ofEntries [("-lar", "Plural"), ("--", "Past"), ("", "1st")] = .error (.emptySuffix "Past") := rfl
  constructor
  · cases made : ofEntries [("-lar", "Plural"), ("-i-m", "1st"), ("im-", "Copula"), ("m", "Noun")] with
    | error error =>
      rw [made] at found
      cases found
    | ok table =>
      rw [made] at found
      obtain ⟨suffix, matched, entry⟩ := Option.map_eq_some_iff.mp (Option.some.inj found)
      obtain ⟨-, answers⟩ := (table_exact _).2.2 table made
      exact ⟨table, rfl, suffix, matched, entry, (answers "evim").2.2 suffix matched⟩
  · obtain ⟨before, text, _, after, order, sound, dashes, same, -⟩ := (table_exact _).2.1 _ failed
    cases same
    exact ⟨failed, before, text, after, order, sound, dashes⟩

end SuffixTable
end Concord
