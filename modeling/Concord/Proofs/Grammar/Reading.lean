import Concord.Grammar.Load
import Concord.Proofs.Dictionary
import Concord.Proofs.Except
import Mathlib.Data.Set.List

namespace Concord

theorem Axis.ofName_eq_ok {name : String} {axis : Axis} :
    Axis.ofName name = .ok axis ↔ axis.name = name := by
  unfold Axis.ofName
  constructor
  · intro read
    cases found : all.find? fun axis => axis.name = name with
    | none => simp [found] at read
    | some named =>
      simp only [found, Except.ok.injEq] at read
      rw [← read]
      simpa using List.find?_some found
  · rintro rfl
    cases axis <;> decide

def Axis.names : List String := ["person", "tense", "number", "other"]

theorem Axis.mem_names {name : String} : name ∈ names ↔ ∃ axis : Axis, axis.name = name := by
  constructor
  · intro known
    simp only [names, List.mem_cons, List.not_mem_nil, or_false] at known
    rcases known with rfl | rfl | rfl | rfl
    · exact ⟨.person, rfl⟩
    · exact ⟨.tense, rfl⟩
    · exact ⟨.number, rfl⟩
    · exact ⟨.other, rfl⟩
  · rintro ⟨axis, rfl⟩
    cases axis <;> decide

theorem Axis.forall_mem_names {listed : List String} :
    (∀ name ∈ listed, name ∈ names) ↔ ∃ axes : List Axis, axes.map Axis.name = listed := by
  simp only [mem_names]
  exact (Set.ext_iff.mp (Set.range_list_map Axis.name) listed).symm

theorem Production.exists_symbols {body : List String} :
    (∃ production : Production, production.symbols = body) ↔ body.length = 1 ∨ body.length = 2 := by
  constructor
  · rintro ⟨production, rfl⟩
    cases production <;> simp [symbols]
  · intro size
    match body, size with
    | [child], _ => exact ⟨.unary child, rfl⟩
    | [left, right], _ => exact ⟨.binary left right, rfl⟩

-- The entries of one production that may stand together. A lone child has no other to agree
-- with and is the head.
structure Admissible (body : List String) (names : Option (List String)) (head : Int) : Prop where
  size : body.length = 1 ∨ body.length = 2
  bounded : head = 0 ∨ head = 1
  axes : ∀ name ∈ names.getD [], name ∈ Axis.names
  lone : body.length = 1 → head = 0 ∧ names.getD [] = []

structure Rule.Follows (rule : Rule) (body : List String) (names : Option (List String)) (head : Int) :
    Prop where
  production : rule.production.symbols = body
  -- Without a list of names nothing must agree.
  constraints : rule.constraints.map Axis.name = names.getD []
  head : (rule.head : Int) = head

def Rule.place (rule : Rule) : String × Nat := (rule.symbol, rule.index)

namespace GrammarFile

variable {symbol : String} {index : Nat} {body : List String} {names : Option (List String)}
  {head : Int} {rule : Rule}

theorem readProduction_eq_ok {production : Production} :
    readProduction symbol index body = .ok production ↔ production.symbols = body := by
  constructor
  · intro read
    unfold readProduction at read
    split at read
    · cases read
      rfl
    · cases read
      rfl
    · cases read
  · rintro rfl
    cases production <;> rfl

theorem readHead_eq_ok {place : Nat} :
    readHead symbol index head = .ok place ↔ (place : Int) = head ∧ (head = 0 ∨ head = 1) := by
  unfold readHead
  split
  · next zero =>
    rw [Except.ok.injEq]
    omega
  · next positive =>
    split
    · next one =>
      rw [Except.ok.injEq]
      omega
    · next more => exact ⟨fun read => (by cases read), fun fits => absurd fits.2 (by simp [positive, more])⟩

theorem readAxes_eq_ok {names : List String} {axes : List Axis} :
    readAxes symbol index names = .ok axes ↔ axes.map Axis.name = names := by
  rw [readAxes, mapError_eq_ok, mapM_eq_ok]
  simp only [Axis.ofName_eq_ok]
  rw [eq_comm, ← List.forall₂_eq_eq_eq, List.forall₂_map_right_iff]
  simp only [eq_comm]

theorem readRule_eq_ok :
    readRule symbol index body names head = .ok rule ↔
      rule.symbol = symbol ∧ rule.index = index ∧ rule.Follows body names head ∧
        Admissible body names head := by
  simp only [readRule, bind_eq_ok, readProduction_eq_ok, readHead_eq_ok, readAxes_eq_ok]
  constructor
  · rintro ⟨production, rfl, place, ⟨rfl, bounded⟩, axes, listed, built⟩
    split at built
    · cases built
    · next allowed =>
      cases built
      refine ⟨rfl, rfl, ⟨rfl, listed, rfl⟩, Production.exists_symbols.mp ⟨production, rfl⟩, bounded,
        Axis.forall_mem_names.mpr ⟨axes, listed⟩, ?_⟩
      intro lone
      rw [← listed]
      simpa [lone] using allowed
  · rintro ⟨rfl, rfl, follows, admissible⟩
    refine ⟨rule.production, follows.production, rule.head, ⟨follows.head, admissible.bounded⟩,
      rule.constraints, follows.constraints, ?_⟩
    rw [if_neg]
    rintro ⟨lone, taken⟩
    obtain ⟨first, free⟩ := admissible.lone lone
    have headless : rule.head = 0 := by simpa [first] using follows.head
    have unconstrained : rule.constraints = [] := by simpa [free] using follows.constraints
    simp [headless, unconstrained] at taken

theorem readRule_succeeds :
    (∃ rule, readRule symbol index body names head = .ok rule) ↔ Admissible body names head := by
  constructor
  · rintro ⟨rule, read⟩
    exact (readRule_eq_ok.mp read).2.2.2
  · intro admissible
    obtain ⟨production, written⟩ := Production.exists_symbols.mpr admissible.size
    obtain ⟨axes, listed⟩ := Axis.forall_mem_names.mp admissible.axes
    have place : (head.toNat : Int) = head := by
      rcases admissible.bounded with rfl | rfl <;> rfl
    exact ⟨⟨symbol, index, production, axes, head.toNat⟩,
      readRule_eq_ok.mpr ⟨rfl, rfl, ⟨written, listed, place⟩, admissible⟩⟩

theorem listed_eq_ok {α : Type} {table : GrammarTable} {entries : Dictionary (List α)} {count : Nat}
    {list : List α} :
    listed table entries symbol count = .ok list ↔
      entries.find? symbol = some list ∧ list.length = count := by
  unfold listed
  cases entries.find? symbol with
  | none => simp
  | some held =>
    simp only [Option.some.injEq]
    split
    · next fits => exact ⟨fun read => by cases read; exact ⟨rfl, fits⟩, fun same => by rw [same.1]⟩
    · next unfit => exact ⟨fun read => (by cases read), fun fits => absurd (fits.1 ▸ fits.2) unfit⟩

variable {constraints : Dictionary (List (Option (List String)))} {implies : Dictionary (List Int)}
  {bodies : List (List String)} {rules : List Rule}

-- One production after the other is read with the entries at its own place. The lists are of one
-- length, so that nothing is cut off where they are put side by side.
theorem rulesOf_eq_ok :
    rulesOf constraints (some implies) symbol bodies = .ok rules ↔
      ∃ lists heads, (constraints.find? symbol = some lists ∧ lists.length = bodies.length) ∧
        (implies.find? symbol = some heads ∧ heads.length = bodies.length) ∧
        (bodies.zip (lists.zip heads)).zipIdx.mapM (fun ((body, names, head), index) =>
          readRule symbol index body names head) = .ok rules := by
  simp only [rulesOf, headsOf, bind_eq_ok, listed_eq_ok]
  constructor
  · rintro ⟨lists, constrained, heads, implied, reads⟩
    exact ⟨lists, heads, constrained, implied, reads⟩
  · rintro ⟨lists, heads, constrained, implied, reads⟩
    exact ⟨lists, constrained, heads, implied, reads⟩

theorem mem_rows {lists : List (Option (List String))} {heads : List Int} :
    ((body, names, head), index) ∈ (bodies.zip (lists.zip heads)).zipIdx ↔
      bodies[index]? = some body ∧ lists[index]? = some names ∧ heads[index]? = some head := by
  rw [List.mem_zipIdx_iff_getElem?, List.getElem?_zip_eq_some, List.getElem?_zip_eq_some]

theorem rulesOf_succeeds :
    (∃ rules, rulesOf constraints (some implies) symbol bodies = .ok rules) ↔
      ∃ lists heads, (constraints.find? symbol = some lists ∧ lists.length = bodies.length) ∧
        (implies.find? symbol = some heads ∧ heads.length = bodies.length) ∧
        ∀ (index : Nat) body names head, bodies[index]? = some body → lists[index]? = some names →
          heads[index]? = some head → Admissible body names head := by
  simp only [rulesOf_eq_ok]
  constructor
  · rintro ⟨rules, lists, heads, constrained, implied, reads⟩
    refine ⟨lists, heads, constrained, implied, ?_⟩
    intro index body names head written constraint first
    have row := mem_rows.mpr ⟨written, constraint, first⟩
    exact readRule_succeeds.mp (mapM_succeeds.mp ⟨rules, reads⟩ _ row)
  · rintro ⟨lists, heads, constrained, implied, admissible⟩
    have reads : ∃ rules, (bodies.zip (lists.zip heads)).zipIdx.mapM (fun ((body, names, head), index) =>
        readRule symbol index body names head) = .ok rules := by
      refine mapM_succeeds.mpr ?_
      rintro ⟨⟨body, names, head⟩, index⟩ member
      obtain ⟨written, constraint, first⟩ := mem_rows.mp member
      exact readRule_succeeds.mpr (admissible index body names head written constraint first)
    obtain ⟨rules, reads⟩ := reads
    exact ⟨rules, lists, heads, constrained, implied, reads⟩

theorem rulesOf_places (reads : rulesOf constraints (some implies) symbol bodies = .ok rules) :
    rules.map Rule.place = (List.range bodies.length).map fun index => (symbol, index) := by
  obtain ⟨lists, heads, ⟨-, constrained⟩, ⟨-, implied⟩, reads⟩ := rulesOf_eq_ok.mp reads
  have places : rules.map Rule.place =
      (bodies.zip (lists.zip heads)).zipIdx.map fun row => (symbol, row.2) := by
    refine mapM_views reads ?_
    rintro ⟨⟨body, names, head⟩, index⟩ rule read
    obtain ⟨rfl, rfl, -⟩ := readRule_eq_ok.mp read
    rfl
  have rows : (bodies.zip (lists.zip heads)).length = bodies.length := by
    simp [constrained, implied]
  rw [places, ← rows, List.range_eq_range', ← List.zipIdx_map_snd, List.map_map]
  rfl

theorem rulesOf_follows (reads : rulesOf constraints (some implies) symbol bodies = .ok rules)
    (member : rule ∈ rules) :
    rule.symbol = symbol ∧ ∃ body names head, bodies[rule.index]? = some body ∧
      constraints.item? rule.symbol rule.index = some names ∧
      implies.item? rule.symbol rule.index = some head ∧ rule.Follows body names head := by
  obtain ⟨lists, heads, ⟨constrained, -⟩, ⟨implied, -⟩, reads⟩ := rulesOf_eq_ok.mp reads
  obtain ⟨⟨⟨body, names, head⟩, index⟩, inside, read⟩ := mapM_source reads member
  obtain ⟨rfl, rfl, follows, -⟩ := readRule_eq_ok.mp read
  obtain ⟨written, constraint, first⟩ := mem_rows.mp inside
  exact ⟨rfl, body, names, head, written, Dictionary.item?_eq_some.mpr ⟨lists, constrained, constraint⟩,
    Dictionary.item?_eq_some.mpr ⟨heads, implied, first⟩, follows⟩

end GrammarFile
end Concord
