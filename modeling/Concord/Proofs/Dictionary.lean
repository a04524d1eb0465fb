import Concord.Dictionary
import Mathlib.Data.List.Perm.Basic
import Std.Data.TreeMap.Lemmas

namespace Concord.Dictionary

variable {α β : Type}

instance [DecidableEq α] : DecidableEq (Dictionary α) := fun a b =>
  decidable_of_iff (a.entries = b.entries) (by cases a; cases b; simp)

theorem find?_eq_some {dictionary : Dictionary α} {key : String} {value : α} :
    dictionary.find? key = some value ↔ (key, value) ∈ dictionary.entries := by
  obtain ⟨entries, sorted⟩ := dictionary
  change entries.lookup key = some value ↔ (key, value) ∈ entries
  induction entries with
  | nil => simp
  | cons entry rest step =>
    obtain ⟨name, held⟩ := entry
    obtain ⟨later, sorted⟩ := List.pairwise_cons.mp sorted
    by_cases here : key = name
    · -- The keys that follow are greater, so none of them is this one again.
      have apart : (key, value) ∉ rest := by
        intro member
        have before := later _ member
        simp [here] at before
      subst here
      simp [apart, eq_comm]
    · have passed : (key == name) = false := by simp [here]
      simp [List.lookup_cons, passed, here, step sorted]

theorem mem_keys {dictionary : Dictionary α} {key : String} :
    key ∈ dictionary.keys ↔ ∃ value, dictionary.find? key = some value := by
  simp [keys, find?_eq_some]

theorem contains_iff {dictionary : Dictionary α} {key : String} :
    dictionary.contains key = true ↔ key ∈ dictionary.keys := by
  rw [mem_keys, contains, Option.isSome_iff_exists]

theorem ext_mem {dictionary other : Dictionary α}
    (same : ∀ key value, (key, value) ∈ dictionary.entries ↔ (key, value) ∈ other.entries) :
    dictionary = other := by
  have distinct (listed : Dictionary α) : listed.entries.Nodup := by
    refine listed.sorted.imp ?_
    intro a b before same
    simp [same] at before
  have order : dictionary.entries.Perm other.entries :=
    (List.perm_ext_iff_of_nodup (distinct _) (distinct _)).mpr fun entry => same entry.1 entry.2
  have entries : dictionary.entries = other.entries := by
    refine order.eq_of_pairwise ?_ dictionary.sorted other.sorted
    intro a b _ _ before after
    exact absurd after (Std.OrientedCmp.not_lt_of_lt before)
  cases dictionary
  cases other
  cases entries
  rfl

theorem mem_ofList {entries : List (String × α)} (distinct : (entries.map Prod.fst).Nodup) {key : String}
    {value : α} : (key, value) ∈ (ofList entries).entries ↔ (key, value) ∈ entries := by
  have apart : entries.Pairwise fun a b => ¬ compare a.1 b.1 = .eq := by
    refine (List.pairwise_map.mp distinct).imp ?_
    intro a b differ same
    exact differ (Std.LawfulEqOrd.eq_of_compare same)
  have written {held : α} (member : (key, held) ∈ entries) :
      (Std.TreeMap.ofList entries compare)[key]? = some held :=
    Std.TreeMap.getElem?_ofList_of_mem Std.ReflOrd.compare_self apart member
  unfold ofList
  rw [Std.TreeMap.mem_toList_iff_getElem?_eq_some]
  constructor
  · intro found
    have known : key ∈ Std.TreeMap.ofList entries compare := by
      rw [Std.TreeMap.mem_iff_isSome_getElem?, found]
      rfl
    rw [Std.TreeMap.mem_ofList, List.contains_iff_mem, List.mem_map] at known
    obtain ⟨⟨_, held⟩, member, rfl⟩ := known
    rw [written member] at found
    cases found
    exact member
  · exact written

theorem ofList_perm {entries others : List (String × α)} (distinct : (entries.map Prod.fst).Nodup)
    (order : entries.Perm others) : ofList entries = ofList others := by
  have distinct' : (others.map Prod.fst).Nodup := (order.map Prod.fst).nodup_iff.mp distinct
  apply ext_mem
  intro key value
  rw [mem_ofList distinct, mem_ofList distinct', order.mem_iff]

def map (change : α → β) (dictionary : Dictionary α) : Dictionary β :=
  ⟨dictionary.entries.map fun entry => (entry.1, change entry.2),
    List.pairwise_map.mpr dictionary.sorted⟩

@[simp] theorem keys_map (change : α → β) (dictionary : Dictionary α) :
    (dictionary.map change).keys = dictionary.keys := by
  simp [keys, map, Function.comp_def]

theorem find?_map {change : α → β} {dictionary : Dictionary α} {key : String} {value : β} :
    (dictionary.map change).find? key = some value ↔
      ∃ source, dictionary.find? key = some source ∧ change source = value := by
  simp only [find?_eq_some, map, List.mem_map, Prod.exists, Prod.ext_iff]
  constructor
  · rintro ⟨_, source, member, rfl, changed⟩
    exact ⟨source, member, changed⟩
  · rintro ⟨source, member, changed⟩
    exact ⟨key, source, member, rfl, changed⟩

def item? (table : Dictionary (List α)) (key : String) (index : Nat) : Option α :=
  (table.find? key).bind fun list => list[index]?

theorem item?_eq_some {table : Dictionary (List α)} {key : String} {index : Nat} {item : α} :
    table.item? key index = some item ↔
      ∃ list, table.find? key = some list ∧ list[index]? = some item := by
  simp [item?, Option.bind_eq_some_iff]

structure Parallel (table : Dictionary (List α)) (other : Dictionary (List β)) : Prop where
  keys : ∀ key, key ∈ table.keys ↔ key ∈ other.keys
  lengths : ∀ key list others, table.find? key = some list → other.find? key = some others →
    list.length = others.length

theorem parallel_iff {table : Dictionary (List α)} {other : Dictionary (List β)} :
    table.Parallel other ↔
      (∀ key ∈ table.keys, key ∈ other.keys) ∧
        ∀ key others, other.find? key = some others →
          ∃ list, table.find? key = some list ∧ list.length = others.length := by
  constructor
  · rintro ⟨keys, lengths⟩
    refine ⟨fun key => (keys key).mp, ?_⟩
    intro key others there
    obtain ⟨list, here⟩ := mem_keys.mp ((keys key).mpr (mem_keys.mpr ⟨others, there⟩))
    exact ⟨list, here, lengths key list others here there⟩
  · rintro ⟨keys, found⟩
    refine ⟨fun key => ⟨keys key, ?_⟩, ?_⟩
    · intro member
      obtain ⟨others, there⟩ := mem_keys.mp member
      obtain ⟨list, here, -⟩ := found key others there
      exact mem_keys.mpr ⟨list, here⟩
    · intro key list others here there
      obtain ⟨same, found, length⟩ := found key others there
      rw [here] at found
      cases found
      exact length

theorem Parallel.symm {table : Dictionary (List α)} {other : Dictionary (List β)}
    (parallel : table.Parallel other) : other.Parallel table :=
  ⟨fun key => (parallel.keys key).symm,
    fun key others list there here => (parallel.lengths key list others here there).symm⟩

theorem Parallel.item {table : Dictionary (List α)} {other : Dictionary (List β)} {key : String}
    {index : Nat} {item : α} (parallel : table.Parallel other)
    (here : table.item? key index = some item) : ∃ counterpart, other.item? key index = some counterpart := by
  obtain ⟨list, found, at_⟩ := item?_eq_some.mp here
  obtain ⟨others, there, length⟩ := (parallel_iff.mp parallel.symm).2 key list found
  obtain ⟨inside, -⟩ := List.getElem?_eq_some_iff.mp at_
  exact ⟨others[index], item?_eq_some.mpr ⟨others, there, List.getElem?_eq_getElem _⟩⟩

end Concord.Dictionary
