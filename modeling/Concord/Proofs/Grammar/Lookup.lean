import Concord.Proofs.Dictionary
import Concord.Proofs.Grammar.Rules

namespace Concord

def Terminals.Lists (terminals : Terminals) (symbol word : String) : Prop :=
  ∃ labels label words, terminals.find? symbol = some labels ∧ labels.find? label = some words ∧ word ∈ words

theorem Terminals.mem_allEntries {terminals : Terminals} {entry : Entry} :
    entry ∈ terminals.allEntries ↔ ∃ labels words, terminals.find? entry.symbol = some labels ∧
      labels.find? entry.label = some words ∧ entry.word ∈ words := by
  obtain ⟨symbol, label, word⟩ := entry
  simp only [allEntries, List.mem_flatMap, List.mem_map, Prod.exists, Dictionary.find?_eq_some, Entry.mk.injEq]
  constructor
  · intro listed
    obtain ⟨_, labels, kept, _, words, filed, _, member, rfl, rfl, rfl⟩ := listed
    exact ⟨labels, words, kept, filed, member⟩
  · intro listed
    obtain ⟨labels, words, kept, filed, member⟩ := listed
    exact ⟨symbol, labels, kept, label, words, filed, word, member, rfl, rfl, rfl⟩

namespace Grammar

variable {grammar : Grammar} {stem : String} {derived : Features}

theorem lookup_eq (grammar : Grammar) (stem : String) (derived : Features) :
    grammar.lookup stem derived =
      ((grammar.terminals.allEntries.filter fun entry => entry.word = stem).map
        fun entry => entry.category derived).eraseDups := by
  unfold lookup
  rw [grammar.byWord_eq, Index.find_of]
  simp only [Option.some.injEq]

theorem mem_lookup {tag : Category} :
    tag ∈ grammar.lookup stem derived ↔
      ∃ entry ∈ grammar.terminals.allEntries, entry.word = stem ∧ entry.category derived = tag := by
  rw [lookup_eq, List.mem_eraseDups]
  simp [and_assoc]

theorem lookup_lists {tag : Category} (found : tag ∈ grammar.lookup stem derived) :
    grammar.terminals.Lists tag.symbol stem := by
  obtain ⟨entry, listed, rfl, rfl⟩ := mem_lookup.mp found
  obtain ⟨labels, words, kept, filed, member⟩ := Terminals.mem_allEntries.mp listed
  exact ⟨labels, entry.label, words, kept, filed, member⟩

theorem lookup_eq_nil :
    grammar.lookup stem derived = [] ↔ ∀ symbol, ¬ grammar.terminals.Lists symbol stem := by
  rw [List.eq_nil_iff_forall_not_mem]
  constructor
  · intro missing symbol lists
    obtain ⟨labels, label, words, kept, filed, member⟩ := lists
    have listed : ⟨symbol, label, stem⟩ ∈ grammar.terminals.allEntries :=
      Terminals.mem_allEntries.mpr ⟨labels, words, kept, filed, member⟩
    exact missing _ (mem_lookup.mpr ⟨_, listed, rfl, rfl⟩)
  · intro unlisted tag found
    exact unlisted _ (lookup_lists found)

end Grammar
end Concord
