import Concord.Cli.Session
import Concord.Proofs.Text.Tokens
import Concord.Proofs.Unicode.Lowercase

namespace Concord

def Cli.answerTokenwise (parser : Parser) (showChart : Bool) (sentence : String) : Except ChartError String := do
  let parse ← parser.parse ((Text.tokens sentence).map Text.turkishLower)
  if showChart then return "chart:\n" ++ (← parse.chart.table) ++ "\n" ++ report parse
  else return report parse

namespace Text

open Unicode

variable {c : Char}

theorem turkishLowerChar_other (dotless : c ≠ 'I') (dotted : c ≠ 'İ') : turkishLowerChar c = toLower c := by
  unfold turkishLowerChar
  rw [if_neg dotless, if_neg dotted]

-- A class of characters that no lowercase letter leaves or enters is kept by the two capitals of I too, if it
-- has each of them together with its lowercase letter.
theorem turkishLowerChar_keeps {keep : Char → Bool} (dotless : keep 'ı' = keep 'I') (dotted : keep 'i' = keep 'İ')
    (other : ∀ c, keep (toLower c) = keep c) (c : Char) : keep (turkishLowerChar c) = keep c := by
  unfold turkishLowerChar
  split
  · next same => rw [same, dotless]
  · split
    · next same => rw [same, dotted]
    · exact other c

theorem isWhiteSpace_turkishLowerChar (c : Char) : isWhiteSpace (turkishLowerChar c) = isWhiteSpace c :=
  turkishLowerChar_keeps (by decide) (by decide) isWhiteSpace_toLower c

theorem isAlphanumeric_turkishLowerChar (c : Char) : isAlphanumeric (turkishLowerChar c) = isAlphanumeric c :=
  turkishLowerChar_keeps (by decide +kernel) (by decide +kernel) isAlphanumeric_toLower c

theorem turkishLowerChar_ne {capital : Char} (listed : capital ∈ ['I', 'İ']) (c : Char) :
    turkishLowerChar c ≠ capital := by
  unfold turkishLowerChar
  split
  · rintro rfl
    revert listed
    decide
  · next dotless =>
    split
    · rintro rfl
      revert listed
      decide
    · next dotted =>
      apply toLower_dotless listed
      simp only [List.mem_cons, List.not_mem_nil, or_false] at listed
      rcases listed with rfl | rfl
      · exact dotless
      · exact dotted

theorem turkishLowerChar_turkishLowerChar (c : Char) : turkishLowerChar (turkishLowerChar c) = turkishLowerChar c := by
  rw [turkishLowerChar_other (turkishLowerChar_ne (by simp) c) (turkishLowerChar_ne (by simp) c)]
  unfold turkishLowerChar
  split
  · decide +kernel
  · split
    · decide +kernel
    · exact toLower_toLower c

theorem toList_turkishLower (text : String) : (turkishLower text).toList = text.toList.map turkishLowerChar :=
  String.toList_ofList

theorem turkishLower_turkishLower (text : String) : turkishLower (turkishLower text) = turkishLower text := by
  apply String.toList_injective
  rw [toList_turkishLower, toList_turkishLower, List.map_map]
  exact List.map_congr_left fun c _ => turkishLowerChar_turkishLowerChar c

theorem turkishLower_dotless {capital : Char} (listed : capital ∈ ['I', 'İ']) (text : String) :
    capital ∉ (turkishLower text).toList := by
  rw [toList_turkishLower]
  intro member
  obtain ⟨c, -, same⟩ := List.mem_map.mp member
  exact turkishLowerChar_ne listed c same

theorem turkishLower_append (a b : String) : turkishLower (a ++ b) = turkishLower a ++ turkishLower b := by
  apply String.toList_injective
  rw [String.toList_append, toList_turkishLower, toList_turkishLower, toList_turkishLower, String.toList_append,
    List.map_append]

theorem tokens_turkishLower (sentence : String) : tokens (turkishLower sentence) = (tokens sentence).map turkishLower := by
  apply map_toList_injective
  calc (tokens (turkishLower sentence)).map String.toList
      = tokenLists (sentence.toList.map turkishLowerChar) := by rw [toList_tokens, toList_turkishLower]
    _ = (tokenLists sentence.toList).map (List.map turkishLowerChar) :=
      tokenLists_map isWhiteSpace_turkishLowerChar isAlphanumeric_turkishLowerChar _
    _ = ((tokens sentence).map turkishLower).map String.toList := by
      rw [← toList_tokens, List.map_map, List.map_map]
      exact List.map_congr_left fun token _ => (toList_turkishLower token).symm

example : tokens (turkishLower "'İzmir'de IRMAK!'") = ["izmir'de", "ırmak"] := by decide +kernel

theorem turkishLower_exact :
    (∀ sentence : String, turkishLower (turkishLower sentence) = turkishLower sentence ∧
      'I' ∉ (turkishLower sentence).toList ∧ 'İ' ∉ (turkishLower sentence).toList ∧
      (turkishLower sentence).length = sentence.length ∧
      tokens (turkishLower sentence) = (tokens sentence).map turkishLower ∧
      ∀ parser showChart, Cli.answer parser showChart sentence = Cli.answerTokenwise parser showChart sentence) ∧
    ∀ a b : String, turkishLower (a ++ b) = turkishLower a ++ turkishLower b := by
  refine ⟨?_, turkishLower_append⟩
  intro sentence
  refine ⟨turkishLower_turkishLower sentence, turkishLower_dotless (by simp) sentence,
    turkishLower_dotless (by simp) sentence, ?_, tokens_turkishLower sentence, ?_⟩
  · rw [← String.length_toList, toList_turkishLower, List.length_map, String.length_toList]
  · intro parser showChart
    unfold Cli.answer Cli.answerTokenwise
    rw [tokens_turkishLower]

end Text
end Concord
