import Concord.Morphology.Suffix

namespace Concord

variable {suffix : Suffix} {token rest : String}

def Suffix.Fits (suffix : Suffix) (token : String) : Prop :=
  ∃ rest, rest ≠ "" ∧ rest ++ suffix.text = token

theorem ends_iff {ending text : String} :
    ending.toList <:+ text.toList ↔ ∃ rest, rest ++ ending = text := by
  constructor
  · rintro ⟨front, whole⟩
    refine ⟨String.ofList front, ?_⟩
    apply String.toList_inj.mp
    rw [String.toList_append, String.toList_ofList, whole]
  · rintro ⟨rest, rfl⟩
    exact ⟨rest.toList, String.toList_append.symm⟩

theorem Suffix.strip?_eq_some :
    suffix.strip? token = some rest ↔ rest ≠ "" ∧ rest ++ suffix.text = token := by
  unfold strip?
  dsimp only
  constructor
  · intro stripped
    split at stripped
    · next ends =>
      obtain ⟨shorter, ends⟩ := ends
      obtain ⟨front, rfl⟩ := ends_iff.mp (List.isSuffixOf_iff_suffix.mp ends)
      have taken : front = rest := by simpa using stripped
      subst taken
      refine ⟨?_, rfl⟩
      rintro rfl
      simp at shorter
    · cases stripped
  · rintro ⟨nonempty, rfl⟩
    have letters : rest.toList ≠ [] := fun blank => nonempty (String.toList_eq_nil_iff.mp blank)
    simp [List.length_pos_iff.mpr letters]

theorem Suffix.fits_iff : suffix.Fits token ↔ ∃ rest, suffix.strip? token = some rest := by
  simp only [Fits, strip?_eq_some]

namespace SuffixTable

variable {table : SuffixTable}

theorem strip?_eq_none : table.strip? token = none ↔ ∀ suffix ∈ table.suffixes, ¬ suffix.Fits token := by
  unfold strip?
  rw [List.findSome?_eq_none_iff]
  simp [Suffix.fits_iff, Option.eq_none_iff_forall_ne_some]

theorem longestMatch?_eq_some :
    table.longestMatch? token = some suffix ↔ ∃ rest, table.strip? token = some (suffix, rest) := by
  simp [longestMatch?]

theorem strip?_parts (stripped : table.strip? token = some (suffix, rest)) :
    suffix ∈ table.suffixes ∧ rest ≠ "" ∧ rest ++ suffix.text = token := by
  obtain ⟨found, listed, fits⟩ := List.exists_of_findSome?_eq_some stripped
  obtain ⟨left, taken, same⟩ := Option.map_eq_some_iff.mp fits
  cases same
  exact ⟨listed, Suffix.strip?_eq_some.mp taken⟩

theorem strip?_fits (stripped : table.strip? token = some (suffix, rest)) : suffix.Fits token :=
  ⟨rest, (strip?_parts stripped).2⟩

theorem strip?_order (stripped : table.strip? token = some (suffix, rest)) :
    ∃ passed behind, table.suffixes = passed ++ suffix :: behind ∧
      (∀ other ∈ passed, ¬ other.Fits token) ∧ ∀ other ∈ behind, other.length ≤ suffix.length := by
  obtain ⟨passed, found, behind, order, here, unfit⟩ := List.findSome?_eq_some_iff.mp stripped
  obtain ⟨left, taken, same⟩ := Option.map_eq_some_iff.mp here
  cases same
  refine ⟨passed, behind, order, ?_, ?_⟩
  · intro other before fits
    obtain ⟨front, stripped⟩ := Suffix.fits_iff.mp fits
    have missed := unfit other before
    rw [stripped] at missed
    cases missed
  · have descending := table.descending
    unfold Suffix.Descending at descending
    rw [order, List.pairwise_append, List.pairwise_cons] at descending
    exact descending.2.1.1

theorem strip?_longest (stripped : table.strip? token = some (suffix, rest)) :
    ∀ other ∈ table.suffixes, other.Fits token → other.length ≤ suffix.length := by
  obtain ⟨passed, behind, order, unfit, shorter⟩ := strip?_order stripped
  intro other listed fits
  rw [order, List.mem_append, List.mem_cons] at listed
  rcases listed with before | rfl | after
  · exact absurd fits (unfit other before)
  · exact Nat.le_refl _
  · exact shorter other after

end SuffixTable
end Concord
