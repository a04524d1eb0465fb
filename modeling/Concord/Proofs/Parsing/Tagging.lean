import Concord.Proofs.FirstOccurrences
import Concord.Proofs.Grammar.Lookup
import Concord.Tagging

namespace Concord

def Morphology.analyses (morphology : Morphology) (token : String) : List Analysis :=
  match morphology token with
  | .ok analyses => analyses
  | .error _ => []

namespace Grammar

variable {grammar : Grammar} {analyses : List Analysis} {analysis : Analysis}

def readings (grammar : Grammar) (analysis : Analysis) : List Category :=
  if grammar.lookup analysis.stem analysis.features = [] then
    [⟨analysis.partOfSpeech.getD "??", analysis.features⟩]
  else grammar.lookup analysis.stem analysis.features

structure Tags (grammar : Grammar) (analyses : List Analysis) (tagged : TaggedToken) : Prop where
  nonempty : tagged.tags ≠ []
  nodup : tagged.tags.Nodup
  unresolved : tagged.unresolved = true ↔
    ∀ analysis ∈ analyses, ∀ symbol, ¬ grammar.terminals.Lists symbol analysis.stem
  unread : analyses = [] → tagged.tags = [⟨"??", .empty⟩]
  read : analyses ≠ [] → FirstOccurrences (analyses.flatMap grammar.readings) tagged.tags
  -- A tag that only looks like one of the lexicon's, because a stand-in is the same, resolves nothing.
  resolved : tagged.unresolved = false ↔ ∃ analysis ∈ analyses, ∃ tag ∈ tagged.tags,
    tag ∈ grammar.lookup analysis.stem analysis.features ∧ grammar.terminals.Lists tag.symbol analysis.stem

theorem resolve?_eq_none :
    grammar.resolve? analysis = none ↔ ∀ symbol, ¬ grammar.terminals.Lists symbol analysis.stem := by
  have missing : grammar.lookup analysis.stem analysis.features = [] ↔
      ∀ symbol, ¬ grammar.terminals.Lists symbol analysis.stem := lookup_eq_nil
  rw [← missing]
  unfold resolve?
  cases grammar.lookup analysis.stem analysis.features <;> simp

theorem tagAnalysis_eq (grammar : Grammar) (analysis : Analysis) :
    grammar.tagAnalysis analysis = grammar.readings analysis := by
  unfold tagAnalysis resolve? readings
  cases grammar.lookup analysis.stem analysis.features <;> rfl

theorem readings_ne_nil : grammar.readings analysis ≠ [] := by
  unfold readings
  split
  · simp
  · next found => exact found

theorem mem_readings {tag : Category} (found : tag ∈ grammar.lookup analysis.stem analysis.features) :
    tag ∈ grammar.readings analysis := by
  rwa [readings, if_neg (List.ne_nil_of_mem found)]

theorem tagAnalyses_tags (some : analyses ≠ []) :
    FirstOccurrences (analyses.flatMap grammar.readings) (grammar.tagAnalyses analyses).tags := by
  cases analyses with
  | nil => contradiction
  | cons first rest =>
    have same : (first :: rest).flatMap grammar.tagAnalysis = (first :: rest).flatMap grammar.readings :=
      List.flatMap_congr fun analysis _ => grammar.tagAnalysis_eq analysis
    rw [← same]
    exact firstOccurrences_eraseDups _

theorem tagAnalyses_ne_nil : (grammar.tagAnalyses analyses).tags ≠ [] := by
  cases analyses with
  | nil => simp [tagAnalyses]
  | cons first rest =>
    have some : grammar.readings first ≠ [] := readings_ne_nil
    obtain ⟨tag, reading⟩ := List.exists_mem_of_ne_nil _ some
    have kept : FirstOccurrences ((first :: rest).flatMap grammar.readings) _ :=
      tagAnalyses_tags (List.cons_ne_nil first rest)
    apply List.ne_nil_of_mem
    exact (kept.mem_iff tag).mpr (List.mem_flatMap.mpr ⟨first, by simp, reading⟩)

theorem tagAnalyses_unresolved_iff :
    (grammar.tagAnalyses analyses).unresolved = true ↔
      ∀ analysis ∈ analyses, ∀ symbol, ¬ grammar.terminals.Lists symbol analysis.stem := by
  simp only [← resolve?_eq_none]
  cases analyses <;> simp [tagAnalyses]

theorem tagAnalyses_resolved_iff :
    (grammar.tagAnalyses analyses).unresolved = false ↔
      ∃ analysis ∈ analyses, ∃ tag ∈ (grammar.tagAnalyses analyses).tags,
        tag ∈ grammar.lookup analysis.stem analysis.features ∧
          grammar.terminals.Lists tag.symbol analysis.stem := by
  rw [← Bool.not_eq_true, tagAnalyses_unresolved_iff]
  constructor
  · intro listed
    push Not at listed
    obtain ⟨analysis, member, symbol, lists⟩ := listed
    have found : grammar.lookup analysis.stem analysis.features ≠ [] :=
      fun missing => lookup_eq_nil.mp missing symbol lists
    obtain ⟨tag, found⟩ := List.exists_mem_of_ne_nil _ found
    have kept : FirstOccurrences (analyses.flatMap grammar.readings) _ :=
      tagAnalyses_tags (List.ne_nil_of_mem member)
    have among : tag ∈ analyses.flatMap grammar.readings :=
      List.mem_flatMap.mpr ⟨analysis, member, mem_readings found⟩
    exact ⟨analysis, member, tag, (kept.mem_iff tag).mpr among, found, lookup_lists found⟩
  · intro resolved unlisted
    obtain ⟨analysis, member, tag, _, _, lists⟩ := resolved
    exact unlisted analysis member tag.symbol lists

theorem tag_eq (grammar : Grammar) (morphology : Morphology) (token : String) :
    grammar.tag morphology token = grammar.tagAnalyses (morphology.analyses token) := by
  unfold tag Morphology.analyses
  cases morphology token <;> rfl

theorem tag_exact (grammar : Grammar) (morphology : Morphology) (token : String) :
    grammar.Tags (morphology.analyses token) (grammar.tag morphology token) := by
  rw [tag_eq]
  refine ⟨tagAnalyses_ne_nil, ?_, tagAnalyses_unresolved_iff, ?_, tagAnalyses_tags, tagAnalyses_resolved_iff⟩
  · cases morphology.analyses token with
    | nil => simp [tagAnalyses]
    | cons first rest => exact (tagAnalyses_tags (List.cons_ne_nil first rest)).nodup
  · intro none
    rw [none]
    rfl

end Grammar
end Concord
