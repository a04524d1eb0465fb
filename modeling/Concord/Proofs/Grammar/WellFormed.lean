import Concord.Cli.Run
import Concord.Proofs.Grammar.Loading

namespace Concord

deriving instance DecidableEq for GrammarFile

namespace GrammarFile

variable {file : GrammarFile} {productions : Dictionary (List (List String))} {terminals : Terminals}
  {constraints : Dictionary (List (Option (List String)))}

structure Fits (file : GrammarFile) (productions : Dictionary (List (List String)))
    (terminals : Terminals) (constraints : Dictionary (List (Option (List String)))) : Prop where
  tables : file.productions = some productions ∧ file.terminals = some terminals ∧
    file.constraints = some constraints
  inhabited : productions.keys ≠ []
  constrained : constraints.Parallel productions
  implied : ∀ implies, file.implies = some implies → implies.Parallel productions
  sizes : ∀ symbol index body, productions.item? symbol index = some body →
    body.length = 1 ∨ body.length = 2
  heads : ∀ implies, file.implies = some implies → ∀ symbol index head,
    implies.item? symbol index = some head → head = 0 ∨ head = 1
  axes : ∀ symbol index names, constraints.item? symbol index = some names →
    ∀ name ∈ names.getD [], name ∈ Axis.names
  loneConstraints : ∀ symbol index child names, productions.item? symbol index = some [child] →
    constraints.item? symbol index = some names → names.getD [] = []
  loneHeads : ∀ implies, file.implies = some implies → ∀ symbol index child head,
    productions.item? symbol index = some [child] → implies.item? symbol index = some head → head = 0
  start : file.start.getD "S" ∈ productions.keys ∨ file.start.getD "S" ∈ terminals.keys

def WellFormed (file : GrammarFile) : Prop :=
  ∃ productions terminals constraints, file.Fits productions terminals constraints

theorem Fits.admissible (fits : file.Fits productions terminals constraints) {symbol : String}
    {index : Nat} {body : List String} {names : Option (List String)} {head : Int}
    (production : productions.item? symbol index = some body)
    (constraint : constraints.item? symbol index = some names)
    (first : (file.headTable productions).item? symbol index = some head) :
    Admissible body names head := by
  have given := headTable_entry first
  refine ⟨fits.sizes _ _ _ production, ?_, fits.axes _ _ _ constraint, ?_⟩
  · rcases given with zero | ⟨implies, given, entry⟩
    · exact .inl zero
    · exact fits.heads implies given _ _ _ entry
  · intro lone
    obtain ⟨child, rfl⟩ := List.length_eq_one_iff.mp lone
    refine ⟨?_, fits.loneConstraints _ _ _ _ production constraint⟩
    rcases given with zero | ⟨implies, given, entry⟩
    · exact zero
    · exact fits.loneHeads implies given _ _ _ _ production entry

theorem fits_iff :
    file.Fits productions terminals constraints ↔
      (file.productions = some productions ∧ file.terminals = some terminals ∧
        file.constraints = some constraints) ∧ productions.keys ≠ [] ∧
      Consistent productions constraints (file.headTable productions) ∧
      (file.start.getD defaultStart ∈ productions.keys ∨
        file.start.getD defaultStart ∈ terminals.keys) := by
  constructor
  · intro fits
    refine ⟨fits.tables, fits.inhabited, ⟨fits.constrained, headTable_parallel fits.implied, ?_⟩, fits.start⟩
    intro symbol index body names head production constraint first
    exact fits.admissible production constraint first
  · -- What a place has in one table it has in the other two, and the three go together.
    rintro ⟨tables, inhabited, ⟨constrained, implied, admissible⟩, start⟩
    refine ⟨tables, inhabited, constrained, ?_, ?_, ?_, ?_, ?_, ?_, start⟩
    · intro implies given
      rw [← headTable_given given]
      exact implied
    · intro symbol index body production
      obtain ⟨names, constraint⟩ := constrained.symm.item production
      obtain ⟨head, first⟩ := implied.symm.item production
      exact (admissible _ _ _ _ _ production constraint first).size
    · intro implies given symbol index head first
      rw [← headTable_given given] at first
      obtain ⟨body, production⟩ := implied.item first
      obtain ⟨names, constraint⟩ := constrained.symm.item production
      exact (admissible _ _ _ _ _ production constraint first).bounded
    · intro symbol index names constraint
      obtain ⟨body, production⟩ := constrained.item constraint
      obtain ⟨head, first⟩ := implied.symm.item production
      exact (admissible _ _ _ _ _ production constraint first).axes
    · intro symbol index child names production constraint
      obtain ⟨head, first⟩ := implied.symm.item production
      exact ((admissible _ _ _ _ _ production constraint first).lone rfl).2
    · intro implies given symbol index child head production first
      rw [← headTable_given given] at first
      obtain ⟨names, constraint⟩ := constrained.symm.item production
      exact ((admissible _ _ _ _ _ production constraint first).lone rfl).1

theorem toGrammar_succeeds : (∃ grammar, file.toGrammar = .ok grammar) ↔ file.WellFormed := by
  simp only [toGrammar_eq_ok, WellFormed, fits_iff, consistent_iff]
  constructor
  · rintro ⟨grammar, productions, terminals, constraints, lists, built⟩
    exact ⟨productions, terminals, constraints, built.tables, built.inhabited,
      ⟨built.known, built.declared, lists, built.reads⟩, built.defined⟩
  · rintro ⟨productions, terminals, constraints, tables, inhabited, ⟨known, declared, lists, reads⟩, defined⟩
    exact ⟨_, productions, terminals, constraints, lists, tables, inhabited, known, declared, reads,
      defined, rfl⟩

end GrammarFile

-- A grammar has what its file lists: for every production one rule, which follows its own entries
-- in the other tables, by symbols in string order and then by the places of the productions.
structure Grammar.Transcribes (grammar : Grammar) (file : GrammarFile)
    (productions : Dictionary (List (List String)))
    (constraints : Dictionary (List (Option (List String)))) : Prop where
  start : grammar.start = file.start.getD "S"
  terminals : file.terminals = some grammar.terminals
  ordered : grammar.rules.Pairwise fun a b =>
    compare a.symbol b.symbol = .lt ∨ a.symbol = b.symbol ∧ a.index < b.index
  whole : ∀ symbol index, (∃ rule ∈ grammar.rules, rule.symbol = symbol ∧ rule.index = index) ↔
    ∃ body, productions.item? symbol index = some body
  follows : ∀ rule ∈ grammar.rules, ∃ body names head,
    productions.item? rule.symbol rule.index = some body ∧
    constraints.item? rule.symbol rule.index = some names ∧
    (file.headTable productions).item? rule.symbol rule.index = some head ∧
    rule.Follows body names head

theorem GrammarFile.toGrammar_transcribes {grammar : Grammar} (loaded : file.toGrammar = .ok grammar) :
    ∃ productions constraints, file.productions = some productions ∧
      file.constraints = some constraints ∧ grammar.Transcribes file productions constraints := by
  obtain ⟨productions, terminals, constraints, lists, built⟩ := toGrammar_eq_ok.mp loaded
  obtain ⟨written, worded, constrained⟩ := built.tables
  have places := toGrammar_places written loaded
  refine ⟨productions, constraints, written, constrained, ?_, ?_, ?_, ?_, ?_⟩
  · rw [built.grammar]
    rfl
  · rw [built.grammar]
    exact worded
  · have sorted := places_sorted productions
    rw [← places] at sorted
    exact List.pairwise_map.mp sorted
  · intro symbol index
    rw [← mem_places, ← places, List.mem_map]
    simp only [Rule.place, Prod.mk.injEq]
  · intro rule member
    exact toGrammar_follows written constrained loaded member

-- Already the first letter tells a refused grammar from an unknown axis.
theorem GrammarError.message_ne (error : GrammarError) (unknown : UnknownAxis) :
    error.message ≠ unknown.message := by
  have first (lead rest : String) {c : Char} (starts : lead.toList.head? = some c) :
      (lead ++ rest).toList.head? = some c := by
    rw [String.toList_append, List.head?_append, starts, Option.some_or]
  have refused : error.message.toList.head? = some 'g' := first "grammar format error: " error.cause rfl
  have unheard : unknown.message.toList.head? = some 'u' := first "unknown feature name: " unknown.name rfl
  intro same
  rw [same, unheard] at refused
  simp at refused

theorem Grammar.loading_exact (text : String) :
    ((∃ grammar, Grammar.ofText text = .ok grammar) ↔
      ∃ file, GrammarFile.ofText? text = some file ∧ file.WellFormed) ∧
    (∀ error, Grammar.ofText text = .error error →
      (Cli.LoadError.grammar error).kind = "GrammarFormat" ∧
        error.message = "grammar format error: " ++ error.cause ∧
        ∀ unknown : UnknownAxis, error.message ≠ unknown.message) ∧
    (∀ grammar, Grammar.ofText text = .ok grammar → ∃ file productions constraints,
      GrammarFile.ofText? text = some file ∧ file.productions = some productions ∧
        file.constraints = some constraints ∧ grammar.Transcribes file productions constraints) ∧
    (∀ file productions other, GrammarFile.ofText? text = some file → file.implies = none →
      file.productions = some productions →
      GrammarFile.ofText? other = some { file with implies := some (GrammarFile.zeros productions) } →
      Grammar.ofText other = Grammar.ofText text) := by
  refine ⟨?_, ?_, ?_, ?_⟩
  · simp only [Grammar.ofText_eq_ok, ← GrammarFile.toGrammar_succeeds]
    constructor
    · rintro ⟨grammar, file, shaped, loaded⟩
      exact ⟨file, shaped, grammar, loaded⟩
    · rintro ⟨file, shaped, grammar, loaded⟩
      exact ⟨grammar, file, shaped, loaded⟩
  · intro error _
    exact ⟨rfl, rfl, error.message_ne⟩
  · intro grammar loaded
    obtain ⟨file, shaped, loaded⟩ := Grammar.ofText_eq_ok.mp loaded
    obtain ⟨productions, constraints, written, constrained, transcribes⟩ :=
      GrammarFile.toGrammar_transcribes loaded
    exact ⟨file, productions, constraints, shaped, written, constrained, transcribes⟩
  · intro file productions other shaped omitted written zeros
    simp only [Grammar.ofText, shaped, zeros, GrammarFile.toGrammar_zeros written omitted]

-- One production three times and a lone child, first without heads and then with zeros for them.
def twinTables : String :=
  "\"variables\":\x7b\"T\":[[\"A\",\"B\"],[\"A\"]],\"S\":[[\"A\",\"B\"],[\"A\",\"B\"]]\x7d,\"terminals\":\x7b\x7d,"
    ++ "\"constraints\":\x7b\"S\":[[\"person\"],null],\"T\":[null,[]]\x7d"

def twinText : String := "\x7b" ++ twinTables ++ "\x7d"

def zeroText : String := "\x7b" ++ twinTables ++ ",\"implies\":\x7b\"S\":[0,0],\"T\":[0,0]\x7d\x7d"

def twinProductions : Dictionary (List (List String)) :=
  .ofList [("S", [["A", "B"], ["A", "B"]]), ("T", [["A", "B"], ["A"]])]

def twinFile : GrammarFile where
  start := none
  productions := some twinProductions
  terminals := some (.ofList [])
  constraints := some (.ofList [("S", [some ["person"], none]), ("T", [none, some []])])
  implies := none

theorem twinText_loads :
    (∃ grammar, Grammar.ofText twinText = .ok grammar ∧
      ∃ productions constraints, grammar.Transcribes twinFile productions constraints) ∧
    Grammar.ofText zeroText = Grammar.ofText twinText := by
  have shaped : GrammarFile.ofText? twinText = some twinFile := by decide +kernel
  have zeros : GrammarFile.ofText? zeroText =
      some { twinFile with implies := some (GrammarFile.zeros twinProductions) } := by decide +kernel
  have accepted : twinFile.toGrammar.isOk = true := by decide +kernel
  have wellFormed : twinFile.WellFormed := by
    refine GrammarFile.toGrammar_succeeds.mp ?_
    cases loaded : twinFile.toGrammar with
    | ok grammar => exact ⟨grammar, rfl⟩
    | error error => rw [loaded] at accepted; cases accepted
  obtain ⟨loads, -, transcribes, same⟩ := Grammar.loading_exact twinText
  obtain ⟨grammar, loaded⟩ := loads.mpr ⟨twinFile, shaped, wellFormed⟩
  obtain ⟨file, productions, constraints, again, -, -, transcribed⟩ := transcribes grammar loaded
  cases shaped.symm.trans again
  exact ⟨⟨grammar, loaded, productions, constraints, transcribed⟩,
    same twinFile twinProductions zeroText shaped rfl rfl zeros⟩

end Concord
