import Concord.Morphology.Stemmer
import Concord.Proofs.Chart.Simulation

namespace Concord

namespace Grammar

variable {grammar : Grammar} {words : List String} {tags : List (List Category)} {chart : Chart}
  {first last position : Nat} {category : Category}

def Uses (grammar : Grammar) (symbol : String) : Prop :=
  ∃ rule ∈ grammar.rules, symbol ∈ rule.production.symbols

instance (symbol : String) : Decidable (grammar.Uses symbol) :=
  inferInstanceAs (Decidable (∃ rule ∈ _, _))

-- No rule makes use of any reading of the token; a token without readings is a case of it.
def Starves (grammar : Grammar) (tags : List (List Category)) (position : Nat) : Prop :=
  ∀ category ∈ tags.getD position [], ¬ grammar.Uses category.symbol

instance : Decidable (grammar.Starves tags position) :=
  inferInstanceAs (Decidable (∀ category ∈ _, _))

theorem uses_of_raises {rule : Rule} {part whole : Category} (known : rule ∈ grammar.rules)
    (raises : rule.Raises part whole) : grammar.Uses part.symbol :=
  ⟨rule, known, by simp [raises.production, Production.symbols]⟩

theorem uses_of_joins {rule : Rule} {left right whole : Category} (known : rule ∈ grammar.rules)
    (joins : rule.Joins left right whole) : grammar.Uses left.symbol ∧ grammar.Uses right.symbol :=
  ⟨⟨rule, known, by simp [joins.production, Production.symbols]⟩,
    ⟨rule, known, by simp [joins.production, Production.symbols]⟩⟩

-- By induction on the derivation. Whichever part of a step covers the token would be one of its
-- readings, and a rule makes use of it.
theorem Derives.starved (derives : grammar.Derives tags first last category)
    (starves : grammar.Starves tags position) (covers : first ≤ position ∧ position ≤ last) :
    first = last ∧ category ∈ tags.getD position [] := by
  induction derives with
  | @token place categories category listed member =>
    obtain rfl : place = position := by omega
    refine ⟨rfl, ?_⟩
    rw [List.getD_eq_getElem?_getD, listed]
    exact member
  | unary known raises below step =>
    exact absurd (uses_of_raises known raises) (starves _ (step covers).2)
  | @binary first cut last rule left right whole known joins lefts rights stepLeft stepRight =>
    by_cases before : position ≤ cut
    · exact absurd (uses_of_joins known joins).1 (starves _ (stepLeft ⟨covers.1, before⟩).2)
    · exact absurd (uses_of_joins known joins).2 (starves _ (stepRight ⟨by omega, covers.2⟩).2)

theorem Filled.starved_span (filled : grammar.Filled words tags chart) (starves : grammar.Starves tags position)
    (covers : first ≤ position ∧ position ≤ last) (longer : first < last) (inside : last < words.length) :
    chart.nodesAt first last = .ok [] := by
  obtain ⟨nodes, read, exact⟩ := filled.categories ⟨Nat.le_of_lt longer, inside⟩
  cases nodes with
  | nil => exact read
  | cons node rest =>
    have derives := (exact node.category).mp (by simp)
    have single := (derives.starved starves covers).1
    omega

theorem Filled.starved_token (filled : grammar.Filled words tags chart)
    (starves : grammar.Starves tags position) (inside : position < words.length) :
    ∃ nodes, chart.nodesAt position position = .ok nodes ∧ ∀ node ∈ nodes, node.isTerminal = true := by
  refine ⟨_, filled.sound.filed.nodesAt_eq ⟨Nat.le_refl _, by rwa [filled.size_eq]⟩, ?_⟩
  intro node member
  obtain ⟨⟨index, node⟩, covered, rfl⟩ := List.mem_map.mp member
  obtain ⟨found, starts, ends⟩ := Chart.mem_covering.mp covered
  have rests := filled.sound.supported index node found
  unfold Supports at rests
  cases origin : node.origin with
  | word text => simp [Node.isTerminal, Node.text?, origin]
  | unary child =>
    simp only [origin] at rests
    obtain ⟨_, part, there, starts', ends', rule, known, raises⟩ := rests
    have derives := (filled.sound.derivation child there).derives
    have covers : part.first ≤ position ∧ position ≤ part.last := by omega
    exact absurd (uses_of_raises known raises) (starves _ (derives.starved starves covers).2)
  | binary left right =>
    simp only [origin] at rests
    obtain ⟨_, _, leftPart, rightPart, _, _, starts', _, _, forward, before, _⟩ := rests
    omega

theorem Filled.starved_trees (filled : grammar.Filled words tags chart)
    (starves : grammar.Starves tags position) (inside : position < words.length) {symbol : String}
    (other : ∀ category ∈ tags.getD position [], category.symbol ≠ symbol) :
    chart.trees symbol = .ok [] := by
  rw [filled.sound.filed.trees_eq filled.sound.rooted]
  have none : chart.tops symbol = [] := by
    apply Classical.byContradiction
    intro some
    obtain ⟨nonempty, features, derives⟩ := (filled.tops_ne_nil symbol).mp some
    have reading := (derives.starved starves ⟨Nat.zero_le _, by omega⟩).2
    exact other _ reading rfl
  rw [none]
  rfl

section Tagging

variable {analyses : List Analysis} {morphology : Morphology} {token : String}

theorem tagAnalyses_unresolved (unresolved : (grammar.tagAnalyses analyses).unresolved = true) :
    ∀ tag ∈ (grammar.tagAnalyses analyses).tags,
      tag = ⟨unknownSymbol, .empty⟩ ∨ ∃ analysis ∈ analyses, tag = analysis.placeholder := by
  intro tag member
  cases analyses with
  | nil => exact Or.inl (List.mem_singleton.mp member)
  | cons head rest =>
    unfold tagAnalyses at unresolved member
    obtain ⟨analysis, listed, among⟩ := List.mem_flatMap.mp (List.mem_eraseDups.mp member)
    have missing := List.all_eq_true.mp unresolved analysis listed
    rw [tagAnalysis, Option.isNone_iff_eq_none.mp missing] at among
    exact Or.inr ⟨analysis, listed, List.mem_singleton.mp among⟩

theorem tag_unresolved (speechless : ∀ analyses, morphology token = .ok analyses →
      ∀ analysis ∈ analyses, analysis.partOfSpeech = none)
    (unresolved : (grammar.tag morphology token).unresolved = true) :
    ∀ tag ∈ (grammar.tag morphology token).tags, tag.symbol = unknownSymbol := by
  intro tag member
  unfold Grammar.tag at unresolved member
  cases analyzed : morphology token with
  | error error =>
    simp only [analyzed] at member
    rw [List.mem_singleton.mp member]
  | ok analyses =>
    simp only [analyzed] at unresolved member
    rcases tagAnalyses_unresolved unresolved tag member with rfl | ⟨analysis, listed, rfl⟩
    · rfl
    · simp [Analysis.placeholder, speechless analyses analyzed analysis listed]

end Tagging
end Grammar

theorem Stemmer.analyze_speechless {stemmer : Stemmer} {token : String} {analyses : List Analysis}
    (analyzed : stemmer.analyze token = .ok analyses) :
    ∀ analysis ∈ analyses, analysis.partOfSpeech = none := by
  intro analysis listed
  cases analyzed
  rw [List.mem_singleton.mp listed]

namespace Parser

structure Reports (parser : Parser) (tokens : List String) (parse : Parse) : Prop where
  tags : parse.tags = (parser.tag tokens).map (·.tags)
  unresolved : ∀ position, position ∈ parse.unresolved ↔
    ∃ tagged, (parser.tag tokens)[position]? = some tagged ∧ tagged.unresolved = true
  filled : parser.grammar.Filled tokens parse.tags parse.chart
  trees : parse.chart.trees parser.grammar.start = .ok parse.trees

theorem parse_reports (parser : Parser) (tokens : List String) :
    ∃ parse, parser.parse tokens = .ok parse ∧ parser.Reports tokens parse := by
  obtain ⟨chart, run, filled⟩ := parser.grammar.chart_filled tokens ((parser.tag tokens).map (·.tags))
  have read := filled.sound.filed.trees_eq filled.sound.rooted parser.grammar.start
  unfold Parser.parse
  dsimp only
  rw [run, ok_bind, read, ok_bind]
  refine ⟨_, rfl, rfl, ?_, filled, read⟩
  intro position
  simp [List.mem_map, List.mem_filter, List.mk_mem_zipIdx_iff_getElem?, and_comm]

theorem Reports.starves {parser : Parser} {tokens : List String} {parse : Parse} {position : Nat}
    (reports : parser.Reports tokens parse)
    (speechless : ∀ token analyses, parser.morphology token = .ok analyses →
      ∀ analysis ∈ analyses, analysis.partOfSpeech = none)
    (unused : ¬ parser.grammar.Uses unknownSymbol) (unresolved : position ∈ parse.unresolved) :
    position < tokens.length ∧ parser.grammar.Starves parse.tags position ∧
      ∀ category ∈ parse.tags.getD position [], category.symbol = unknownSymbol := by
  obtain ⟨tagged, listed, missing⟩ := (reports.unresolved position).mp unresolved
  unfold Parser.tag at listed
  rw [List.getElem?_map] at listed
  obtain ⟨token, spoken, rfl⟩ := Option.map_eq_some_iff.mp listed
  have tags : parse.tags.getD position [] = (parser.grammar.tag parser.morphology token).tags := by
    rw [reports.tags, Parser.tag, List.map_map, List.getD_eq_getElem?_getD, List.getElem?_map, spoken]
    rfl
  have unknown : ∀ category ∈ parse.tags.getD position [], category.symbol = unknownSymbol := by
    rw [tags]
    exact Grammar.tag_unresolved (speechless token) missing
  refine ⟨(List.getElem?_eq_some_iff.mp spoken).1, ?_, unknown⟩
  intro category member
  rw [unknown category member]
  exact unused

end Parser

theorem Grammar.unknown_words_block (grammar : Grammar) :
    (∀ words tags position, position < words.length → grammar.Starves tags position →
      ∃ chart, grammar.chart words tags = .ok chart ∧
        (∀ first last, first ≤ position → position ≤ last → first < last → last < words.length →
          chart.nodesAt first last = .ok []) ∧
        ∃ nodes, chart.nodesAt position position = .ok nodes ∧
          ∀ node ∈ nodes, node.isTerminal = true) ∧
    (grammar.start ≠ unknownSymbol → ¬ grammar.Uses unknownSymbol →
      ∀ (stemmer : Stemmer) tokens, ∃ parse, Parser.parse ⟨grammar, stemmer.analyze⟩ tokens = .ok parse ∧
        (parse.unresolved ≠ [] → parse.isGrammatical = false ∧ parse.trees = [])) := by
  constructor
  · intro words tags position inside starves
    obtain ⟨chart, run, filled⟩ := grammar.chart_filled words tags
    refine ⟨chart, run, ?_, filled.starved_token starves inside⟩
    intro first last starts ends longer within
    exact filled.starved_span starves ⟨starts, ends⟩ longer within
  · intro start unused stemmer tokens
    obtain ⟨parse, run, reports⟩ := Parser.parse_reports ⟨grammar, stemmer.analyze⟩ tokens
    refine ⟨parse, run, ?_⟩
    intro some
    obtain ⟨position, unresolved⟩ := List.exists_mem_of_ne_nil _ some
    obtain ⟨inside, starves, unknown⟩ :=
      reports.starves (fun token analyses => Stemmer.analyze_speechless) unused unresolved
    have read := reports.filled.starved_trees starves inside fun category member same =>
      start (same.symm.trans (unknown category member))
    have none : parse.trees = [] := Except.ok.inj (reports.trees.symm.trans read)
    exact ⟨by simp [Parse.isGrammatical, none], none⟩

def homeClause : Grammar where
  start := "S"
  rules := [⟨"S", 0, .binary "N" "V", [.person], 1⟩]
  terminals := ⟨[("N", ⟨[("Common", ["ev"])], by decide⟩), ("V", ⟨[("Transitive", ["ye"])], by decide⟩)],
    by decide⟩

def homeStemmer : Stemmer where
  lexicon := .ofWords ["ev", "ye"]
  suffixes := .ofSuffixes [⟨"di", by decide, "Past"⟩]

-- An adverb starves the first sentence, an unknown word the second.
theorem homeClause_starved :
    (1 < ["ev", "bugün"].length ∧ homeClause.Starves [[⟨"N", .empty⟩], [⟨"Adv", .empty⟩]] 1 ∧
      ∃ chart, homeClause.chart ["ev", "bugün"] [[⟨"N", .empty⟩], [⟨"Adv", .empty⟩]] = .ok chart ∧
        chart.nodesAt 0 1 = .ok []) ∧
    homeClause.start ≠ unknownSymbol ∧ ¬ homeClause.Uses unknownSymbol ∧
      ∃ parse, Parser.parse ⟨homeClause, homeStemmer.analyze⟩ ["ev", "at"] = .ok parse ∧
        parse.unresolved ≠ [] ∧ parse.isGrammatical = false ∧ parse.trees = [] := by
  have inside : 1 < ["ev", "bugün"].length := by decide
  have starves : homeClause.Starves [[⟨"N", .empty⟩], [⟨"Adv", .empty⟩]] 1 := by decide
  have start : homeClause.start ≠ unknownSymbol := by decide
  have unused : ¬ homeClause.Uses unknownSymbol := by decide
  obtain ⟨chart, ran, empty, _⟩ := homeClause.unknown_words_block.1 _ _ 1 inside starves
  obtain ⟨parse, run, blocks⟩ := homeClause.unknown_words_block.2 start unused homeStemmer ["ev", "at"]
  have second : (Parser.parse ⟨homeClause, homeStemmer.analyze⟩ ["ev", "at"]).toOption.map (·.unresolved) =
      some [1] := by
    decide +kernel
  rw [run] at second
  have positions : parse.unresolved = [1] := Option.some.inj second
  have unresolved : parse.unresolved ≠ [] := by simp [positions]
  exact ⟨⟨inside, starves, chart, ran, empty 0 1 (by decide) (by decide) (by decide) inside⟩, start, unused,
    parse, run, unresolved, blocks unresolved⟩

end Concord
