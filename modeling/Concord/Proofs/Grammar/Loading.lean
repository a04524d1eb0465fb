import Concord.Proofs.Grammar.Reading

namespace Concord

namespace GrammarFile

theorem required_eq_ok {α : Type} {table : GrammarTable} {entries : Option α} {found : α} :
    required table entries = .ok found ↔ entries = some found := by
  cases entries <;> simp [required]

theorem nonEmpty_eq_ok {productions : Dictionary (List (List String))} :
    nonEmpty productions = .ok () ↔ productions.keys ≠ [] := by
  unfold nonEmpty
  split
  · next empty => simpa [Dictionary.isEmpty, Dictionary.keys] using empty
  · next inhabited => simpa [Dictionary.isEmpty, Dictionary.keys] using inhabited

theorem onlyDeclared_eq_ok {table : GrammarTable} {symbols : List String}
    {productions : Dictionary (List (List String))} :
    onlyDeclared table symbols productions = .ok () ↔ ∀ symbol ∈ symbols, symbol ∈ productions.keys := by
  unfold onlyDeclared
  split
  · next symbol found =>
    have refused := List.find?_some found
    have listed := List.mem_of_find?_eq_some found
    simp only [← Dictionary.contains_iff, reduceCtorEq, false_iff]
    intro declared
    simp [declared symbol listed] at refused
  · next passed =>
    simpa [← Dictionary.contains_iff] using passed

def zeros (productions : Dictionary (List (List String))) : Dictionary (List Int) :=
  productions.map fun bodies => List.replicate bodies.length 0

variable {file : GrammarFile} {productions : Dictionary (List (List String))} {terminals : Terminals}
  {constraints : Dictionary (List (Option (List String)))} {implies : Dictionary (List Int)}

theorem zeros_parallel : (zeros productions).Parallel productions := by
  refine ⟨fun key => by rw [zeros, Dictionary.keys_map], ?_⟩
  intro key heads bodies found written
  obtain ⟨source, there, rfl⟩ := Dictionary.find?_map.mp found
  cases written.symm.trans there
  exact List.length_replicate

theorem zeros_entry {symbol : String} {index : Nat} {head : Int}
    (entry : (zeros productions).item? symbol index = some head) : head = 0 := by
  obtain ⟨heads, found, place⟩ := Dictionary.item?_eq_some.mp entry
  obtain ⟨bodies, -, rfl⟩ := Dictionary.find?_map.mp found
  exact List.eq_of_mem_replicate (List.mem_of_getElem? place)

theorem headsOf_zeros {symbol : String} {bodies : List (List String)}
    (written : productions.find? symbol = some bodies) :
    headsOf (some (zeros productions)) symbol bodies.length = headsOf none symbol bodies.length :=
  listed_eq_ok.mpr ⟨Dictionary.find?_map.mpr ⟨bodies, written, rfl⟩, List.length_replicate⟩

theorem toGrammar_zeros (written : file.productions = some productions) (omitted : file.implies = none) :
    ({ file with implies := some (zeros productions) } : GrammarFile).toGrammar = file.toGrammar := by
  have declared : onlyDeclared .implies (zeros productions).keys productions = .ok () := by
    simp [onlyDeclared_eq_ok, zeros]
  have undeclared : onlyDeclared .implies [] productions = .ok () := rfl
  unfold toGrammar
  simp only [written, omitted, required, Option.elim, declared, undeclared, ok_bind]
  refine bind_congr fun terminals => bind_congr fun constraints => ?_
  refine bind_congr fun _ => bind_congr fun _ => ?_
  congr 1
  refine mapM_congr fun entry member => ?_
  simp only [rulesOf, headsOf_zeros (Dictionary.find?_eq_some.mpr member)]

structure Built (file : GrammarFile) (productions : Dictionary (List (List String)))
    (terminals : Terminals) (constraints : Dictionary (List (Option (List String))))
    (heads : Dictionary (List Int)) (lists : List (List Rule)) (grammar : Grammar) : Prop where
  tables : file.productions = some productions ∧ file.terminals = some terminals ∧
    file.constraints = some constraints
  inhabited : productions.keys ≠ []
  known : ∀ symbol ∈ constraints.keys, symbol ∈ productions.keys
  declared : ∀ symbol ∈ heads.keys, symbol ∈ productions.keys
  reads : productions.entries.mapM (fun (symbol, bodies) =>
    rulesOf constraints (some heads) symbol bodies) = .ok lists
  defined : file.start.getD defaultStart ∈ productions.keys ∨ file.start.getD defaultStart ∈ terminals.keys
  grammar : grammar = { start := file.start.getD defaultStart, terminals, rules := lists.flatten }

theorem toGrammar_given {grammar : Grammar} (given : file.implies = some implies) :
    file.toGrammar = .ok grammar ↔
      ∃ productions terminals constraints lists,
        file.Built productions terminals constraints implies lists grammar := by
  unfold toGrammar
  simp only [given, bind_eq_ok, required_eq_ok]
  constructor
  · rintro ⟨productions, written, terminals, worded, constraints, constrained, ⟨⟩, inhabited, ⟨⟩, known,
      ⟨⟩, declared, lists, reads, built⟩
    split at built
    · next defined =>
      cases built
      rw [Bool.or_eq_true, Dictionary.contains_iff, Dictionary.contains_iff] at defined
      exact ⟨productions, terminals, constraints, lists, ⟨written, worded, constrained⟩,
        nonEmpty_eq_ok.mp inhabited, onlyDeclared_eq_ok.mp known, onlyDeclared_eq_ok.mp declared, reads,
        defined, rfl⟩
    · cases built
  · rintro ⟨productions, terminals, constraints, lists, built⟩
    obtain ⟨written, worded, constrained⟩ := built.tables
    refine ⟨productions, written, terminals, worded, constraints, constrained,
      (), nonEmpty_eq_ok.mpr built.inhabited, (), onlyDeclared_eq_ok.mpr built.known,
      (), onlyDeclared_eq_ok.mpr built.declared, lists, built.reads, ?_⟩
    rw [if_pos, built.grammar]
    rw [Bool.or_eq_true, Dictionary.contains_iff, Dictionary.contains_iff]
    exact built.defined

def headTable (file : GrammarFile) (productions : Dictionary (List (List String))) : Dictionary (List Int) :=
  file.implies.getD (zeros productions)

theorem toGrammar_headTable (written : file.productions = some productions) :
    ({ file with implies := some (file.headTable productions) } : GrammarFile).toGrammar = file.toGrammar := by
  cases given : file.implies with
  | none => rw [headTable, given, Option.getD_none, toGrammar_zeros written given]
  | some implies => rw [headTable, given, Option.getD_some, ← given]

theorem headTable_given (given : file.implies = some implies) : file.headTable productions = implies := by
  rw [headTable, given, Option.getD_some]

theorem headTable_entry {symbol : String} {index : Nat} {head : Int}
    (entry : (file.headTable productions).item? symbol index = some head) :
    head = 0 ∨ ∃ implies, file.implies = some implies ∧ implies.item? symbol index = some head := by
  unfold headTable at entry
  cases given : file.implies with
  | none => rw [given] at entry; exact .inl (zeros_entry entry)
  | some implies => rw [given] at entry; exact .inr ⟨implies, rfl, entry⟩

theorem headTable_parallel
    (implied : ∀ implies, file.implies = some implies → implies.Parallel productions) :
    (file.headTable productions).Parallel productions := by
  unfold headTable
  cases given : file.implies with
  | none => exact zeros_parallel
  | some implies => exact implied implies given

theorem toGrammar_eq_ok {grammar : Grammar} :
    file.toGrammar = .ok grammar ↔
      ∃ productions terminals constraints lists,
        file.Built productions terminals constraints (file.headTable productions) lists grammar := by
  constructor
  · intro loaded
    have written : ∃ productions, file.productions = some productions := by
      unfold toGrammar at loaded
      simp only [bind_eq_ok, required_eq_ok] at loaded
      obtain ⟨productions, written, -⟩ := loaded
      exact ⟨productions, written⟩
    obtain ⟨productions, written⟩ := written
    rw [← toGrammar_headTable written] at loaded
    obtain ⟨same, terminals, constraints, lists, built⟩ := (toGrammar_given rfl).mp loaded
    cases written.symm.trans built.tables.1
    exact ⟨productions, terminals, constraints, lists, { built with }⟩
  · rintro ⟨productions, terminals, constraints, lists, built⟩
    rw [← toGrammar_headTable built.tables.1]
    exact (toGrammar_given rfl).mpr ⟨productions, terminals, constraints, lists, { built with }⟩

-- The three tables have the same places, and at each of them three entries that go together.
structure Consistent (productions : Dictionary (List (List String)))
    (constraints : Dictionary (List (Option (List String)))) (heads : Dictionary (List Int)) : Prop where
  constrained : constraints.Parallel productions
  implied : heads.Parallel productions
  admissible : ∀ symbol index body names head, productions.item? symbol index = some body →
    constraints.item? symbol index = some names → heads.item? symbol index = some head →
    Admissible body names head

theorem consistent_iff {heads : Dictionary (List Int)} :
    Consistent productions constraints heads ↔
      (∀ symbol ∈ constraints.keys, symbol ∈ productions.keys) ∧
      (∀ symbol ∈ heads.keys, symbol ∈ productions.keys) ∧
      ∃ lists, productions.entries.mapM (fun (symbol, bodies) =>
        rulesOf constraints (some heads) symbol bodies) = .ok lists := by
  simp only [mapM_succeeds, Prod.forall, rulesOf_succeeds, ← Dictionary.find?_eq_some]
  constructor
  · rintro ⟨constrained, implied, admissible⟩
    obtain ⟨known, constrained⟩ := Dictionary.parallel_iff.mp constrained
    obtain ⟨declared, implied⟩ := Dictionary.parallel_iff.mp implied
    refine ⟨known, declared, ?_⟩
    intro symbol bodies written
    obtain ⟨lists, constrained⟩ := constrained symbol bodies written
    obtain ⟨heads, implied⟩ := implied symbol bodies written
    refine ⟨lists, heads, constrained, implied, ?_⟩
    intro index body names head production constraint first
    exact admissible symbol index body names head
      (Dictionary.item?_eq_some.mpr ⟨bodies, written, production⟩)
      (Dictionary.item?_eq_some.mpr ⟨lists, constrained.1, constraint⟩)
      (Dictionary.item?_eq_some.mpr ⟨heads, implied.1, first⟩)
  · rintro ⟨known, declared, each⟩
    refine ⟨Dictionary.parallel_iff.mpr ⟨known, ?_⟩, Dictionary.parallel_iff.mpr ⟨declared, ?_⟩, ?_⟩
    · intro symbol bodies written
      obtain ⟨lists, -, constrained, -⟩ := each symbol bodies written
      exact ⟨lists, constrained⟩
    · intro symbol bodies written
      obtain ⟨-, heads, -, implied, -⟩ := each symbol bodies written
      exact ⟨heads, implied⟩
    · intro symbol index body names head production constraint first
      obtain ⟨bodies, written, production⟩ := Dictionary.item?_eq_some.mp production
      obtain ⟨lists, heads, ⟨constrained, -⟩, ⟨implied, -⟩, admissible⟩ := each symbol bodies written
      simp only [Dictionary.item?, constrained, Option.bind_some] at constraint
      simp only [Dictionary.item?, implied, Option.bind_some] at first
      exact admissible index body names head production constraint first

def places (productions : Dictionary (List (List String))) : List (String × Nat) :=
  productions.entries.flatMap fun (symbol, bodies) =>
    (List.range bodies.length).map fun index => (symbol, index)

theorem places_sorted (productions : Dictionary (List (List String))) :
    (places productions).Pairwise fun a b => compare a.1 b.1 = .lt ∨ a.1 = b.1 ∧ a.2 < b.2 := by
  refine List.pairwise_flatMap.mpr ⟨?_, ?_⟩
  · rintro ⟨symbol, bodies⟩ -
    refine List.pairwise_map.mpr (List.pairwise_lt_range.imp ?_)
    intro a b before
    exact .inr ⟨rfl, before⟩
  · refine productions.sorted.imp ?_
    intro earlier later before a member b other
    obtain ⟨_, -, rfl⟩ := List.mem_map.mp member
    obtain ⟨_, -, rfl⟩ := List.mem_map.mp other
    exact .inl before

theorem mem_places {symbol : String} {index : Nat} :
    (symbol, index) ∈ places productions ↔ ∃ body, productions.item? symbol index = some body := by
  simp only [places, List.mem_flatMap, Prod.exists, List.mem_map, List.mem_range, Prod.mk.injEq,
    ← Dictionary.find?_eq_some, Dictionary.item?_eq_some]
  constructor
  · rintro ⟨_, bodies, written, _, inside, rfl, rfl⟩
    exact ⟨bodies[_], bodies, written, List.getElem?_eq_getElem inside⟩
  · rintro ⟨body, bodies, written, place⟩
    obtain ⟨inside, -⟩ := List.getElem?_eq_some_iff.mp place
    exact ⟨symbol, bodies, written, index, inside, rfl, rfl⟩

-- A symbol has its places in one row, since no other entry has its key.
theorem places_of (productions : Dictionary (List (List String))) (symbol : String) :
    ((places productions).filter fun place => place.1 = symbol).map Prod.snd =
      List.range ((productions.find? symbol).getD []).length := by
  have row (name : String) (count : Nat) :
      (((List.range count).map fun index => (name, index)).filter fun place => place.1 = symbol).map Prod.snd =
        if name = symbol then List.range count else [] := by
    by_cases same : name = symbol <;> simp [List.filter_map, Function.comp_def, same]
  obtain ⟨entries, sorted⟩ := productions
  simp only [places, Dictionary.find?, List.filter_flatMap, List.map_flatMap, row]
  induction entries with
  | nil => rfl
  | cons entry rest step =>
    obtain ⟨name, bodies⟩ := entry
    obtain ⟨later, sorted⟩ := List.pairwise_cons.mp sorted
    rw [List.flatMap_cons]
    by_cases same : name = symbol
    · have others : (rest.flatMap fun entry =>
          if entry.1 = symbol then List.range entry.2.length else []) = [] := by
        refine List.flatMap_eq_nil_iff.mpr fun other member => if_neg ?_
        intro again
        have before := later other member
        simp [same, again] at before
      rw [others, if_pos same]
      simp [same]
    · have passed : (symbol == name) = false := by simp [Ne.symm same]
      rw [if_neg same, List.nil_append, step sorted, List.lookup_cons, passed]

theorem toGrammar_places {grammar : Grammar} (written : file.productions = some productions)
    (loaded : file.toGrammar = .ok grammar) : grammar.rules.map Rule.place = places productions := by
  obtain ⟨_, terminals, constraints, lists, built⟩ := toGrammar_eq_ok.mp loaded
  cases written.symm.trans built.tables.1
  have each : lists.map (List.map Rule.place) = productions.entries.map fun (symbol, bodies) =>
      (List.range bodies.length).map fun index => (symbol, index) :=
    mapM_views built.reads fun entry rules read => rulesOf_places read
  rw [built.grammar, List.map_flatten, each]
  rfl

theorem toGrammar_follows {grammar : Grammar} {rule : Rule}
    (written : file.productions = some productions) (constrained : file.constraints = some constraints)
    (loaded : file.toGrammar = .ok grammar) (member : rule ∈ grammar.rules) :
    ∃ body names head, productions.item? rule.symbol rule.index = some body ∧
      constraints.item? rule.symbol rule.index = some names ∧
      (file.headTable productions).item? rule.symbol rule.index = some head ∧
      rule.Follows body names head := by
  obtain ⟨_, terminals, _, lists, built⟩ := toGrammar_eq_ok.mp loaded
  cases written.symm.trans built.tables.1
  cases constrained.symm.trans built.tables.2.2
  rw [built.grammar] at member
  obtain ⟨rules, listed, inside⟩ := List.mem_flatten.mp member
  obtain ⟨⟨symbol, bodies⟩, entry, read⟩ := mapM_source built.reads listed
  obtain ⟨rfl, body, names, head, production, constraint, first, follows⟩ := rulesOf_follows read inside
  have held := Dictionary.find?_eq_some.mpr entry
  have production := Dictionary.item?_eq_some.mpr ⟨bodies, held, production⟩
  exact ⟨body, names, head, production, constraint, first, follows⟩

end GrammarFile

theorem Grammar.ofText_eq_ok {text : String} {grammar : Grammar} :
    Grammar.ofText text = .ok grammar ↔
      ∃ file, GrammarFile.ofText? text = some file ∧ file.toGrammar = .ok grammar := by
  unfold Grammar.ofText
  cases GrammarFile.ofText? text <;> simp

end Concord
