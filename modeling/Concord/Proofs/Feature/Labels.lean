import Concord.Feature.Labels
import Concord.Proofs.Feature.Overlay
import Concord.Proofs.Text.Search

namespace Concord

theorem getLast?_filterMap_eq_some {α β : Type} {view : α → Option β} {items : List α} {result : β} :
    (items.filterMap view).getLast? = some result ↔
      ∃ front item back, items = front ++ item :: back ∧ view item = some result ∧ ∀ later ∈ back, view later = none := by
  rw [List.getLast?_filterMap, List.findSome?_eq_some_iff]
  constructor
  · rintro ⟨front, item, back, order, found, none⟩
    refine ⟨back.reverse, item, front.reverse, ?_, found, ?_⟩
    · rw [← List.reverse_reverse items, order, List.reverse_append, List.reverse_cons, List.append_assoc,
        List.singleton_append]
    · intro later member
      exact none later (List.mem_reverse.mp member)
  · rintro ⟨front, item, back, rfl, found, none⟩
    refine ⟨back.reverse, item, front.reverse, by simp, found, ?_⟩
    intro later member
    exact none later (List.mem_reverse.mp member)

namespace Labels

def Names (forms : List String) (label : String) : Prop :=
  ∃ form ∈ forms, form.toList <:+: label.toList

def LastNaming (forms labels : List String) (label : String) : Prop :=
  ∃ front back, labels = front ++ label :: back ∧ Names forms label ∧ ∀ later ∈ back, ¬ Names forms later

-- What every form of a person begins with, the plural ones too.
def ordinals : List String := ["1st", "2nd", "3rd"]

-- The person that an ordinal stands for is a plural one just when the sign of it follows at once.
def personForm (ordinal : String) (after : List Char) : String :=
  if "PL".toList <+: after then ordinal ++ "PL" else ordinal

variable {forms labels : List String} {label value : String} {letters : List Char}

theorem leftmost?_names : Text.leftmost? forms label = none ↔ ¬ Names forms label := by
  rw [Text.leftmost?_eq_none]
  simp only [Names, not_exists, not_and]

theorem leftmost?_some_names (found : Text.leftmost? forms label = some value) : Names forms label := by
  by_contra unnamed
  rw [leftmost?_names.mpr unnamed] at found
  cases found

theorem lastForm?_append (forms labels others : List String) :
    lastForm? forms (labels ++ others) = (lastForm? forms others).or (lastForm? forms labels) := by
  unfold lastForm?
  rw [List.filterMap_append, List.getLast?_append]

theorem lastForm?_cons (forms : List String) (label : String) (rest : List String) :
    lastForm? forms (label :: rest) = (lastForm? forms rest).or (Text.leftmost? forms label) := by
  have single : lastForm? forms [label] = Text.leftmost? forms label := by
    unfold lastForm?
    cases found : Text.leftmost? forms label <;> simp [found]
  rw [← single, ← lastForm?_append, List.singleton_append]

theorem lastForm?_eq_none : lastForm? forms labels = none ↔ ∀ label ∈ labels, ¬ Names forms label := by
  simp only [lastForm?, List.getLast?_eq_none_iff, List.filterMap_eq_nil_iff, leftmost?_names]

theorem lastForm?_eq_some :
    lastForm? forms labels = some value ↔
      ∃ label, LastNaming forms labels label ∧ Text.leftmost? forms label = some value := by
  unfold lastForm?
  rw [getLast?_filterMap_eq_some]
  simp only [leftmost?_names]
  constructor
  · rintro ⟨front, label, back, order, found, none⟩
    exact ⟨label, ⟨front, back, order, leftmost?_some_names found, none⟩, found⟩
  · rintro ⟨label, ⟨front, back, order, -, none⟩, found⟩
    exact ⟨front, label, back, order, found, none⟩

theorem ordinal_ahead : ∀ form ∈ personForms, ∃ ordinal ∈ ordinals, ordinal.toList <+: form.toList := by
  decide

theorem ordinal_listed : ∀ ordinal ∈ ordinals, ordinal ∈ personForms := by
  decide

theorem names_personForms : Names personForms label ↔ Names ordinals label := by
  constructor
  · rintro ⟨form, listed, inside⟩
    obtain ⟨ordinal, member, ahead⟩ := ordinal_ahead form listed
    exact ⟨ordinal, member, ahead.isInfix.trans inside⟩
  · rintro ⟨ordinal, listed, inside⟩
    exact ⟨ordinal, ordinal_listed ordinal listed, inside⟩

-- The plural forms add no label to those that name an ordinal.
theorem names_personLabels : Names personLabels label ↔ Names ordinals label := by
  have same : personLabels.Perm personForms := by decide
  rw [← names_personForms]
  simp only [Names, same.mem_iff]

theorem personForm_listed (after : List Char) : ∀ ordinal ∈ ordinals, personForm ordinal after ∈ personForms := by
  intro ordinal member
  unfold personForm
  split <;> revert ordinal <;> decide

theorem personForm_prefix (ordinal : String) (after : List Char) :
    (personForm ordinal after).toList <+: ordinal.toList ++ after := by
  unfold personForm
  split
  · next follows =>
    rw [String.toList_append]
    exact (List.prefix_append_right_inj _).mpr follows
  · exact List.prefix_append _ _

-- At a place where an ordinal stands the plural forms are tried before it, so it is read whole.
theorem wordAt?_ordinal {ordinal : String} (listed : ordinal ∈ ordinals) (after : List Char) :
    Text.wordAt? personForms (ordinal.toList ++ after) = some (personForm ordinal after) := by
  simp only [ordinals, List.mem_cons, List.not_mem_nil, or_false] at listed
  unfold personForm
  by_cases follows : "PL".toList <+: after
  · rw [if_pos follows]
    obtain ⟨rest, rfl⟩ := follows
    rcases listed with rfl | rfl | rfl <;> rfl
  · rw [if_neg follows]
    have unread : ['P', 'L'].isPrefixOf after = false :=
      Bool.eq_false_iff.mpr (mt List.isPrefixOf_iff_prefix.mp follows)
    rcases listed with rfl | rfl | rfl <;> simp [Text.wordAt?, personForms, List.isPrefixOf, unread]

theorem leftmost?_personForms :
    Text.leftmost? personForms label = some value ↔
      ∃ before ordinal after, Text.Leftmost ordinals label before ordinal after ∧ value = personForm ordinal after := by
  rw [Text.leftmost?_eq_some]
  constructor
  · rintro ⟨before, after, leftmost, found⟩
    obtain ⟨ordinal, listed, rest, begins⟩ := ordinal_ahead value leftmost.listed
    rw [← begins, List.append_assoc, wordAt?_ordinal listed] at found
    refine ⟨before, ordinal, rest ++ after, ⟨listed, ?_, ?_⟩, (Option.some.inj found).symm⟩
    · rw [← leftmost.whole, ← begins, List.append_assoc, List.append_assoc, List.append_assoc]
    · intro other member earlier later whole
      exact leftmost.first other (ordinal_listed other member) earlier later whole
  · rintro ⟨before, ordinal, after, leftmost, rfl⟩
    obtain ⟨rest, whole⟩ := personForm_prefix ordinal after
    refine ⟨before, rest, ⟨personForm_listed after ordinal leftmost.listed, ?_, ?_⟩, ?_⟩
    · rw [List.append_assoc, whole, ← List.append_assoc, leftmost.whole]
    · intro other member earlier later same
      obtain ⟨ahead, listed, behind, begins⟩ := ordinal_ahead other member
      apply leftmost.first ahead listed earlier (behind ++ later)
      rw [← same, ← begins, List.append_assoc, List.append_assoc, List.append_assoc]
    · rw [whole, wordAt?_ordinal leftmost.listed]

theorem lastForm?_person :
    lastForm? personForms labels = some value ↔
      ∃ label before ordinal after, LastNaming ordinals labels label ∧
        Text.Leftmost ordinals label before ordinal after ∧ value = personForm ordinal after := by
  simp only [lastForm?_eq_some, leftmost?_personForms, LastNaming, names_personForms]
  constructor
  · rintro ⟨label, last, before, ordinal, after, reads⟩
    exact ⟨label, before, ordinal, after, last, reads⟩
  · rintro ⟨label, before, ordinal, after, last, reads⟩
    exact ⟨label, last, before, ordinal, after, reads⟩

theorem lastForm?_apart (apart : Text.Apart forms) :
    lastForm? forms labels = some value ↔
      ∃ label before after, LastNaming forms labels label ∧ Text.Leftmost forms label before value after := by
  simp only [lastForm?_eq_some, Text.leftmost?_apart apart]
  constructor
  · rintro ⟨label, last, before, after, leftmost⟩
    exact ⟨label, before, after, last, leftmost⟩
  · rintro ⟨label, before, after, last, leftmost⟩
    exact ⟨label, last, before, after, leftmost⟩

theorem lastForm?_single {form : String} :
    lastForm? [form] labels = some value ↔ value = form ∧ ∃ label ∈ labels, form.toList <:+: label.toList := by
  have only : ∀ found, lastForm? [form] labels = some found → found = form := by
    intro found last
    obtain ⟨label, -, reads⟩ := lastForm?_eq_some.mp last
    obtain ⟨before, after, leftmost, -⟩ := Text.leftmost?_eq_some.mp reads
    exact List.mem_singleton.mp leftmost.listed
  have missing : lastForm? [form] labels = none ↔ ¬ ∃ label ∈ labels, form.toList <:+: label.toList := by
    simp [lastForm?_eq_none, Names]
  cases last : lastForm? [form] labels with
  | none =>
    have unnamed := missing.mp last
    simp [unnamed]
  | some found =>
    obtain rfl := only found last
    have named : ∃ label ∈ labels, found.toList <:+: label.toList := by
      by_contra unnamed
      rw [missing.mpr unnamed] at last
      cases last
    simp [named, eq_comm]

def tables : List (Axis × List String) :=
  [(.person, personForms), (.tense, tenseForms), (.number, markedNumbers)]

end Labels

namespace Features

open Labels

def read (table : Axis × List String) (features : Features) (label : String) : Features :=
  match Text.leftmost? table.2 label with
  | none => features
  | some form => features.insert table.1 form

structure Reads (labels : List String) (features : Features) : Prop where
  person : ∀ value, features.person = some value ↔
    ∃ label before ordinal after, LastNaming ["1st", "2nd", "3rd"] labels label ∧
      Text.Leftmost ["1st", "2nd", "3rd"] label before ordinal after ∧
        value = if "PL".toList <+: after then ordinal ++ "PL" else ordinal
  tense : ∀ value, features.tense = some value ↔
    ∃ label before after, LastNaming ["Past", "Present", "Future"] labels label ∧
      Text.Leftmost ["Past", "Present", "Future"] label before value after
  number : ∀ value, features.number = some value ↔
    value = "Plural" ∧ ∃ label ∈ labels, "Plural".toList <:+: label.toList
  other : features.other = none

theorem ofCategories_reads (labels : List String) : Reads labels (ofCategories labels) where
  person _ := lastForm?_person
  tense _ := lastForm?_apart (by decide)
  number _ := lastForm?_single
  other := rfl

theorem get_read (table : Axis × List String) (features : Features) (label : String) (asked : Axis) :
    (features.read table label).get asked =
      if asked = table.1 then (Text.leftmost? table.2 label).or (features.get asked) else features.get asked := by
  unfold read
  cases Text.leftmost? table.2 label with
  | none => simp
  | some form => simp

theorem get_foldl_read (table : Axis × List String) (features : Features) (labels : List String) (asked : Axis) :
    (labels.foldl (read table) features).get asked =
      if asked = table.1 then (lastForm? table.2 labels).or (features.get asked) else features.get asked := by
  induction labels generalizing features with
  | nil => simp [lastForm?]
  | cons label rest step =>
    rw [List.foldl_cons, step, get_read, lastForm?_cons, Option.or_assoc]
    split <;> rfl

theorem ofCategories_eq_foldl (labels : List String) :
    ofCategories labels = tables.foldl (fun features table => labels.foldl (read table) features) empty := by
  apply ext_get
  intro axis
  simp only [tables, List.foldl_cons, List.foldl_nil, get_foldl_read, get_empty, Option.or_none]
  cases axis <;> simp [ofCategories, get]

theorem ofCategories_append (labels others : List String) :
    ofCategories (labels ++ others) = (ofCategories labels).overlay (ofCategories others) := by
  simp only [ofCategories, overlay, lastForm?_append, Option.or_none]

theorem get_ofCategories (labels : List String) (axis : Axis) :
    (ofCategories labels).get axis = (labels.filterMap fun label => (ofCategories [label]).get axis).getLast? := by
  induction labels with
  | nil => cases axis <;> rfl
  | cons label rest step =>
    rw [← List.singleton_append, ofCategories_append, get_overlay, step, List.filterMap_append, List.getLast?_append]
    congr 1
    cases said : (ofCategories [label]).get axis <;> simp [said]

end Features
end Concord
