import Concord.Proofs.Feature.Overlay
import Concord.Proofs.FirstOccurrences
import Concord.Proofs.Grammar.Lookup

namespace Concord

namespace Terminals

-- On each axis the derived value. Where there is none, the label stands on its own axis.
def reading (symbol label : String) (derived : Features) : Category :=
  ⟨symbol, .ofAxes fun axis => (derived.get axis).or (if axis = .ofLabel label then some label else none)⟩

def scan (terminals : Terminals) (stem : String) (derived : Features) : List Category :=
  terminals.entries.flatMap fun (symbol, labels) =>
    labels.entries.flatMap fun (label, words) =>
      if stem ∈ words then [reading symbol label derived] else []

def Files (terminals : Terminals) (symbol label word : String) : Prop :=
  ∃ labels words, terminals.find? symbol = some labels ∧ labels.find? label = some words ∧ word ∈ words

variable {terminals : Terminals} {symbol label other stem : String} {derived : Features}

theorem lists_iff : terminals.Lists symbol stem ↔ ∃ label, terminals.Files symbol label stem :=
  exists_comm

theorem reading_carries (differ : label ≠ other)
    (same : reading symbol label derived = reading symbol other derived) :
    (derived.get (.ofLabel label)).isSome = true := by
  have value := congrArg (fun tag : Category => tag.features.get (.ofLabel label)) same
  cases carried : derived.get (.ofLabel label) with
  | some held => rfl
  | none =>
    simp only [reading, Features.get_ofAxes, carried, Option.none_or, if_true] at value
    split at value
    · cases value
      contradiction
    · cases value

theorem reading_eq_iff (differ : label ≠ other) :
    reading symbol label derived = reading symbol other derived ↔
      (derived.get (.ofLabel label)).isSome = true ∧ (derived.get (.ofLabel other)).isSome = true := by
  constructor
  · intro same
    exact ⟨reading_carries differ same, reading_carries differ.symm same.symm⟩
  · rintro ⟨here, there⟩
    unfold reading
    congr 2
    funext axis
    cases carried : derived.get axis with
    | some held => rfl
    | none =>
      have apart : axis ≠ .ofLabel label := by
        rintro rfl
        simp [carried] at here
      have apart' : axis ≠ .ofLabel other := by
        rintro rfl
        simp [carried] at there
      simp [apart, apart']

end Terminals

theorem Entry.category_eq (entry : Entry) (derived : Features) :
    entry.category derived = Terminals.reading entry.symbol entry.label derived := by
  unfold category Terminals.reading
  congr 1
  apply Features.ext_get
  intro axis
  simp

namespace Grammar

variable {grammar : Grammar} {symbol label stem : String} {derived : Features}

theorem reading_mem_lookup (filed : grammar.terminals.Files symbol label stem) :
    Terminals.reading symbol label derived ∈ grammar.lookup stem derived := by
  rw [mem_lookup]
  exact ⟨⟨symbol, label, stem⟩, Terminals.mem_allEntries.mpr filed, rfl, Entry.category_eq _ derived⟩

theorem lookup_eq_scan (grammar : Grammar) (stem : String) (derived : Features) :
    grammar.lookup stem derived = (grammar.terminals.scan stem derived).eraseDups := by
  rw [lookup_eq]
  simp only [Terminals.allEntries, List.filter_flatMap, List.map_flatMap, List.filter_map, List.map_map,
    Function.comp_def, Entry.category_eq]
  apply eraseDups_flatMap_congr
  rintro ⟨symbol, labels⟩ -
  apply eraseDups_flatMap_congr
  rintro ⟨label, words⟩ -
  rw [List.filter_eq, List.map_replicate, eraseDups_replicate]
  by_cases listed : stem ∈ words
  · simp [listed, List.count_eq_zero, List.eraseDups_cons]
  · simp [listed, List.count_eq_zero]

theorem lookup_exact (grammar : Grammar) (stem : String) (derived : Features) :
    FirstOccurrences (grammar.terminals.scan stem derived) (grammar.lookup stem derived) ∧
    (grammar.lookup stem derived = [] ↔ ∀ symbol label, ¬ grammar.terminals.Files symbol label stem) ∧
    ∀ symbol label other, label ≠ other → grammar.terminals.Files symbol label stem →
      grammar.terminals.Files symbol other stem →
        Terminals.reading symbol label derived ∈ grammar.lookup stem derived ∧
        Terminals.reading symbol other derived ∈ grammar.lookup stem derived ∧
        (Terminals.reading symbol label derived = Terminals.reading symbol other derived ↔
          (derived.get (.ofLabel label)).isSome = true ∧ (derived.get (.ofLabel other)).isSome = true) := by
  have occurrences := firstOccurrences_eraseDups (grammar.terminals.scan stem derived)
  rw [← lookup_eq_scan] at occurrences
  refine ⟨occurrences, ?_, ?_⟩
  · simp only [lookup_eq_nil, Terminals.lists_iff, not_exists]
  · intro symbol label other differ here there
    exact ⟨reading_mem_lookup here, reading_mem_lookup there, Terminals.reading_eq_iff differ⟩

def shelf : Grammar where
  start := "N"
  rules := []
  terminals := ⟨[("N", ⟨[("Common", ["kitap", "kitap"]), ("Plural", ["kitap"])], by decide⟩)], by decide⟩

-- Derived features on both axes make one tag of the two readings; on one axis they do not.
theorem shelf_readings :
    "Common" ≠ "Plural" ∧ shelf.terminals.Files "N" "Common" "kitap" ∧ shelf.terminals.Files "N" "Plural" "kitap" ∧
      Terminals.reading "N" "Common" { number := some "Singular", other := some "Proper" } =
        Terminals.reading "N" "Plural" { number := some "Singular", other := some "Proper" } ∧
      Terminals.reading "N" "Common" { number := some "Singular" } ≠
        Terminals.reading "N" "Plural" { number := some "Singular" } ∧
      shelf.lookup "kitap" { number := some "Singular" } =
        [⟨"N", { number := some "Singular", other := some "Common" }⟩, ⟨"N", { number := some "Singular" }⟩] := by
  have differ : "Common" ≠ "Plural" := by decide
  have common : shelf.terminals.Files "N" "Common" "kitap" := ⟨_, _, rfl, rfl, by decide⟩
  have plural : shelf.terminals.Files "N" "Plural" "kitap" := ⟨_, _, rfl, rfl, by decide⟩
  obtain ⟨-, -, same⟩ := (lookup_exact shelf "kitap"
    { number := some "Singular", other := some "Proper" }).2.2 "N" _ _ differ common plural
  obtain ⟨-, -, apart⟩ := (lookup_exact shelf "kitap" { number := some "Singular" }).2.2 "N" _ _ differ common plural
  refine ⟨differ, common, plural, same.mpr ⟨by decide, by decide⟩, ?_, by decide +kernel⟩
  intro equal
  exact absurd (apart.mp equal).1 (by decide)

end Grammar
end Concord
