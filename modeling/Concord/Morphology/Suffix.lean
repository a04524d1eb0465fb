import Concord.Json.Decode
import Concord.Json.Reader

namespace Concord

structure Suffix where
  text : String
  -- A suffix that is nothing could be taken off for ever.
  text_nonempty : text ≠ ""
  category : String
  deriving DecidableEq

inductive SuffixError where
  | malformed
  | emptySuffix (category : String)
  deriving DecidableEq

def SuffixError.message : SuffixError → String
  | malformed => "malformed JSON"
  | emptySuffix category => "suffix table error: empty suffix in category " ++ category

namespace Suffix

def length (suffix : Suffix) : Nat := suffix.text.length

def undashed (text : String) : String := String.ofList (text.toList.filter (· ≠ '-'))

def ofEntry (entry : String × String) : Except SuffixError Suffix :=
  if nonempty : undashed entry.1 ≠ "" then .ok ⟨undashed entry.1, nonempty, entry.2⟩
  else .error (.emptySuffix entry.2)

def strip? (suffix : Suffix) (token : String) : Option String :=
  let ending := suffix.text.toList
  let letters := token.toList
  if ending.length < letters.length ∧ ending.isSuffixOf letters then
    some (String.ofList (letters.take (letters.length - ending.length)))
  else none

theorem strip?_length {suffix : Suffix} {token rest : String}
    (stripped : suffix.strip? token = some rest) : rest.length < token.length := by
  have positive : 0 < suffix.text.toList.length :=
    List.length_pos_iff.mpr fun blank => suffix.text_nonempty (String.toList_eq_nil_iff.mp blank)
  unfold strip? at stripped
  dsimp only at stripped
  split at stripped
  · rename_i ends
    cases stripped
    simp only [← String.length_toList, String.toList_ofList, List.length_take]
    omega
  · cases stripped

def place (suffix : Suffix) : List Suffix → List Suffix
  | [] => [suffix]
  | other :: rest =>
    if other.length ≤ suffix.length then suffix :: other :: rest else other :: place suffix rest

-- Longest first; suffixes of one length keep their order, as each is put before later ones.
def sorted (suffixes : List Suffix) : List Suffix := suffixes.foldr place []

def Descending (suffixes : List Suffix) : Prop :=
  suffixes.Pairwise fun a b => b.length ≤ a.length

theorem mem_place {suffix other : Suffix} {suffixes : List Suffix} :
    other ∈ place suffix suffixes ↔ other = suffix ∨ other ∈ suffixes := by
  induction suffixes with
  | nil => simp [place]
  | cons head rest step =>
    unfold place
    split
    · simp
    · simp only [List.mem_cons, step]
      exact or_left_comm

theorem place_descending {suffix : Suffix} {suffixes : List Suffix}
    (ordered : Descending suffixes) : Descending (place suffix suffixes) := by
  induction suffixes with
  | nil => exact List.pairwise_singleton _ _
  | cons head rest step =>
    have parts := List.pairwise_cons.mp ordered
    unfold place
    split
    · rename_i short
      refine List.pairwise_cons.mpr ⟨fun other member => ?_, ordered⟩
      rcases List.mem_cons.mp member with rfl | later
      · exact short
      · exact Nat.le_trans (parts.1 other later) short
    · rename_i long
      refine List.pairwise_cons.mpr ⟨fun other member => ?_, step parts.2⟩
      rcases mem_place.mp member with rfl | later
      · omega
      · exact parts.1 other later

theorem sorted_descending (suffixes : List Suffix) : Descending (sorted suffixes) := by
  induction suffixes with
  | nil => exact .nil
  | cons head rest step => exact place_descending step

end Suffix

structure SuffixTable where
  suffixes : List Suffix
  descending : Suffix.Descending suffixes

namespace SuffixTable

def ofSuffixes (suffixes : List Suffix) : SuffixTable :=
  ⟨Suffix.sorted suffixes, Suffix.sorted_descending suffixes⟩

def ofEntries (entries : List (String × String)) : Except SuffixError SuffixTable := do
  return ofSuffixes (← entries.mapM Suffix.ofEntry)

def derivational : String := "Derivational"

def ofText (text : String) (useDerivational : Bool) : Except SuffixError SuffixTable :=
  match (Json.read? text).bind (Json.dictionaryOf? (Json.listOf? Json.text?)) with
  | none => .error .malformed
  | some categories =>
    let used := categories.entries.filter fun (category, _) =>
      useDerivational || category ≠ derivational
    ofEntries (used.flatMap fun (category, suffixes) =>
      suffixes.map fun suffix => (suffix, category))

def strip? (table : SuffixTable) (token : String) : Option (Suffix × String) :=
  table.suffixes.findSome? fun suffix => (suffix.strip? token).map fun rest => (suffix, rest)

def longestMatch? (table : SuffixTable) (token : String) : Option Suffix :=
  (table.strip? token).map (·.1)

theorem strip?_length {table : SuffixTable} {token rest : String} {suffix : Suffix}
    (stripped : table.strip? token = some (suffix, rest)) : rest.length < token.length := by
  obtain ⟨found, _, fits⟩ := List.exists_of_findSome?_eq_some stripped
  obtain ⟨left, taken, same⟩ := Option.map_eq_some_iff.mp fits
  cases same
  exact Suffix.strip?_length taken

end SuffixTable
end Concord
